import SpecAsCode.Core.SpecGraph
import SpecAsCode.Lib.Preorder

/-!
# From a YAML document to plain data

The parser of YAML builds a tree of nodes, in which an alias stands for another node.  The
compiler walks the tree and builds the values that the schema of a specification checks.  The
parser and the checks of the schema are given; the walk is the compiler's own.
-/

namespace SpecAsCode.Compiler

open SpecAsCode.Js
open SpecAsCode.Core
open SpecAsCode.Lib

/-! ## Documents -/

/-- `node.value` of a scalar: a primitive value, or an object of a built-in class, of which it
is only told whether it is a `Date`. -/
inductive ScalarValue where
  | null
  | bool (value : Bool)
  | number (value : JsNumber)
  | string (value : JsString)
  | symbol (description : JsString)
  | builtIn (isDate : Bool)
  deriving DecidableEq

/-- A node of a document.  Aliases are told apart by numbers; `absent` is a node that is not
there, and `other` is none of the kinds the walk knows. -/
inductive YamlNode where
  | absent
  | aliased (id : Nat)
  | scalar (value : ScalarValue)
  | seq (items : List YamlNode)
  | map (pairs : List (YamlNode × YamlNode))
  | other

mutual

/-- The aliases in a node. -/
def YamlNode.ids : YamlNode → List Nat
  | .absent => []
  | .aliased id => [id]
  | .scalar _ => []
  | .seq items => idsOfItems items
  | .map pairs => idsOfPairs pairs
  | .other => []

def idsOfItems : List YamlNode → List Nat
  | [] => []
  | item :: rest => item.ids ++ idsOfItems rest

def idsOfPairs : List (YamlNode × YamlNode) → List Nat
  | [] => []
  | (key, value) :: rest => key.ids ++ (value.ids ++ idsOfPairs rest)

end

/-- A document with its aliases.  An alias resolves to a node of the document, which may be one
that the alias is in. -/
structure YamlDocument where
  errors : List JsString
  contents : YamlNode
  aliases : List Nat
  resolve : Nat → YamlNode
  listed : ∀ id ∈ contents.ids, id ∈ aliases
  closed : ∀ id ∈ aliases, ∀ other ∈ (resolve id).ids, other ∈ aliases

/-! ## Plain data -/

/-- A value the walk builds.  The prototype of an object is the usual one, none, or an object
that the document assigned to `__proto__`. -/
inductive RawValue where
  | scalar (value : ScalarValue)
  | array (items : List RawValue)
  | object (members : List (JsString × RawValue))
  | bare (members : List (JsString × RawValue))
  | derived (prototype : RawValue) (members : List (JsString × RawValue))

/-- The own properties of an object, in enumeration order. -/
abbrev RawMembers := List (JsString × RawValue)

/-- Creation or update of an own data property. -/
def setMember (key : JsString) (value : RawValue) : RawMembers → RawMembers
  | [] => [(key, value)]
  | (name, old) :: rest =>
      if name = key then
        (key, value) :: rest
      else if listedBefore key name then
        (key, value) :: (name, old) :: rest
      else
        (name, old) :: setMember key value rest

namespace RawValue

/-- The own properties of an object that is not an array. -/
def members? : RawValue → Option RawMembers
  | .object members => some members
  | .bare members => some members
  | .derived _ members => some members
  | _ => none

def setOwn (object : RawValue) (key : JsString) (value : RawValue) : RawValue :=
  match object with
  | .object members => .object (setMember key value members)
  | .bare members => .bare (setMember key value members)
  | .derived prototype members => .derived prototype (setMember key value members)
  | other => other

/-- The setter of `Object.prototype.__proto__`: objects and `null` become the prototype, and
everything else is ignored. -/
def setPrototype (object value : RawValue) : RawValue :=
  match object with
  | .object members =>
      match value with
      | .scalar .null => .bare members
      | .scalar (.builtIn isDate) => .derived (.scalar (.builtIn isDate)) members
      | .scalar _ => .object members
      | prototype => .derived prototype members
  | other => other

/-- `object[key] = value`, on an object that started as `{}` and in which every key is
assigned once. -/
def assign (object : RawValue) (key : JsString) (value : RawValue) : RawValue :=
  if key = protoKey then object.setPrototype value else object.setOwn key value

/-- `value[key]`, for a key that no built-in prototype defines. -/
def get (key : JsString) : RawValue → Option RawValue
  | .object members => (members.find? fun member => member.1 = key).map Prod.snd
  | .bare members => (members.find? fun member => member.1 = key).map Prod.snd
  | .derived prototype members =>
      ((members.find? fun member => member.1 = key).map Prod.snd).or (prototype.get key)
  | _ => none

end RawValue

/-! ## The walk -/

structure Walked where
  value : RawValue
  diagnostics : List Diagnostic

def Walked.report (walked : Walked) (diagnostics : List Diagnostic) : Walked :=
  { walked with diagnostics := diagnostics ++ walked.diagnostics }

/-- `` `${path === "" ? "" : path + "."}${part}` ``. -/
def extendPath (path part : JsString) : JsString :=
  if path = [] then part else path ++ js "." ++ part

/-- `path || "<root>"`. -/
def pathOrRoot (path : JsString) : JsString :=
  if path = [] then js "<root>" else path

def cyclicAlias (path : JsString) : Diagnostic :=
  error (js "SPC0001") (js "cyclic YAML alias at " ++ path ++ js ".") none

def complexKey (path : JsString) : Diagnostic :=
  error (js "SPC0001")
    (js "complex mapping keys are not supported (at " ++ pathOrRoot path ++ js ").") none

def duplicateKey (key : JsString) : Diagnostic :=
  error (js "SPC0001") (js "duplicate key \"" ++ key ++ js "\" in mapping.") none

def unsupportedNode (path : JsString) : Diagnostic :=
  error (js "SPC0001") (js "unsupported YAML node at " ++ pathOrRoot path ++ js ".") none

/-- `String(keyNode.value)`, for a key that is a scalar, not `null` and not an object. -/
def YamlNode.keyText : YamlNode → Option JsString
  | .scalar (.bool true) => some (js "true")
  | .scalar (.bool false) => some (js "false")
  | .scalar (.number value) => some value.text
  | .scalar (.string value) => some value
  | .scalar (.symbol description) => some (js "Symbol(" ++ description ++ js ")")
  | _ => none

mutual

/-- `walkNode`, with what to do at an alias. -/
def walkWith (onAlias : Nat → JsString → Option Walked) (path : JsString) :
    YamlNode → Option Walked
  | .absent => some ⟨.scalar .null, []⟩
  | .aliased id => onAlias id path
  | .scalar value => some ⟨.scalar value, []⟩
  | .seq items =>
      (walkItems onAlias path 0 items).map fun walked => ⟨.array walked.1, walked.2⟩
  | .map pairs => walkPairs onAlias path (.object []) [] pairs
  | .other => some ⟨.scalar .null, [unsupportedNode path]⟩

/-- The items of a sequence from an index on. -/
def walkItems (onAlias : Nat → JsString → Option Walked) (path : JsString) (index : Nat) :
    List YamlNode → Option (List RawValue × List Diagnostic)
  | [] => some ([], [])
  | item :: rest =>
      (walkWith onAlias (extendPath path (natText index)) item).bind fun walked =>
        (walkItems onAlias path (index + 1) rest).map fun others =>
          (walked.value :: others.1, walked.diagnostics ++ others.2)

/-- The pairs of a mapping that are left, with the object so far and the keys that were seen. -/
def walkPairs (onAlias : Nat → JsString → Option Walked) (path : JsString) (object : RawValue)
    (seen : List JsString) : List (YamlNode × YamlNode) → Option Walked
  | [] => some ⟨object, []⟩
  | (keyNode, valueNode) :: rest =>
      match keyNode.keyText with
      | none => (walkPairs onAlias path object seen rest).map (·.report [complexKey path])
      | some key =>
          if key ∈ seen then
            (walkPairs onAlias path object seen rest).map (·.report [duplicateKey key])
          else
            (walkWith onAlias (extendPath path key) valueNode).bind fun walked =>
              (walkPairs onAlias path (object.assign key walked.value) (key :: seen) rest).map
                (·.report walked.diagnostics)

end

/-- `walkNode`.  The bound is on the aliases that are being followed, which are listed. -/
def walkNode (doc : YamlDocument) : Nat → List Nat → JsString → YamlNode → Option Walked
  | 0, aliases, path, node =>
      walkWith (fun id path =>
        if id ∈ aliases then some ⟨.scalar .null, [cyclicAlias path]⟩ else none) path node
  | fuel + 1, aliases, path, node =>
      walkWith (fun id path =>
        if id ∈ aliases then
          some ⟨.scalar .null, [cyclicAlias path]⟩
        else
          walkNode doc fuel (id :: aliases) path (doc.resolve id)) path node

/-! ## The walk ends -/

section Ends

variable {onAlias : Nat → JsString → Option Walked}

/-- A walk ends when it ends at every alias it meets. -/
theorem walkWith_isSome {node : YamlNode} :
    ∀ {path : JsString}, (∀ id ∈ node.ids, ∀ path, (onAlias id path).isSome = true) →
      (walkWith onAlias path node).isSome = true := by
  refine @YamlNode.rec
    (fun node => ∀ {path}, (∀ id ∈ node.ids, ∀ path, (onAlias id path).isSome = true) →
      (walkWith onAlias path node).isSome = true)
    (fun items => ∀ path index, (∀ id ∈ idsOfItems items, ∀ path, (onAlias id path).isSome = true) →
      (walkItems onAlias path index items).isSome = true)
    (fun pairs => ∀ path object seen,
      (∀ id ∈ idsOfPairs pairs, ∀ path, (onAlias id path).isSome = true) →
      (walkPairs onAlias path object seen pairs).isSome = true)
    (fun pair => ∀ path, (∀ id ∈ pair.2.ids, ∀ path, (onAlias id path).isSome = true) →
      (walkWith onAlias path pair.2).isSome = true)
    ?absent ?aliased ?scalar ?seq ?map ?other ?noItems ?items ?noPairs ?pairs ?pair node
  case absent => intro path _; rfl
  case aliased => intro id path follows; exact follows id List.mem_cons_self path
  case scalar => intro value path _; rfl
  case seq =>
    intro items inductionHypothesis path follows
    rw [walkWith, Option.isSome_map]
    exact inductionHypothesis path 0 follows
  case map =>
    intro pairs inductionHypothesis path follows
    exact inductionHypothesis path _ _ follows
  case other => intro path _; rfl
  case noItems => intro path index _; rfl
  case items =>
    intro item rest first others path index follows
    rw [idsOfItems, List.forall_mem_append] at follows
    obtain ⟨walked, here⟩ := Option.isSome_iff_exists.mp
      (@first (extendPath path (natText index)) follows.1)
    rw [walkItems, here, Option.bind_some, Option.isSome_map]
    exact others path (index + 1) follows.2
  case noPairs => intro path object seen _; rfl
  case pairs =>
    intro pair rest first others path object seen follows
    obtain ⟨keyNode, valueNode⟩ := pair
    rw [idsOfPairs, List.forall_mem_append, List.forall_mem_append] at follows
    rw [walkPairs]
    cases keyNode.keyText with
    | none =>
        simp only [Option.isSome_map]
        exact others path object seen follows.2.2
    | some key =>
        simp only
        split_ifs with known
        · rw [Option.isSome_map]
          exact others path object seen follows.2.2
        · obtain ⟨walked, here⟩ := Option.isSome_iff_exists.mp
            (first (extendPath path key) follows.2.1)
          rw [here, Option.bind_some, Option.isSome_map]
          exact others path _ _ follows.2.2
  case pair => intro keyNode valueNode _ value path follows; exact value follows

end Ends

/-- The walk ends, however its aliases share or cycle: one that is followed is not followed
again inside of itself. -/
theorem walkNode_ends (doc : YamlDocument) {fuel : Nat} :
    ∀ {aliases : List Nat} {path : JsString} {node : YamlNode},
      missing doc.aliases aliases ≤ fuel → (∀ id ∈ node.ids, id ∈ doc.aliases) →
      (walkNode doc fuel aliases path node).isSome = true := by
  induction fuel with
  | zero =>
      intro aliases path node room known
      refine walkWith_isSome fun id member path => ?_
      split_ifs with followed
      · rfl
      · have counted := List.countP_eq_zero.mp (Nat.le_zero.mp room) id (known id member)
        simp [followed] at counted
  | succ fuel inductionHypothesis =>
      intro aliases path node room known
      refine walkWith_isSome fun id member path => ?_
      split_ifs with followed
      · rfl
      · have less := missing_lt (fun other here => List.mem_cons_of_mem id here) (known id member)
          followed List.mem_cons_self
        exact inductionHypothesis (by omega) (doc.closed id (known id member))

theorem walk_ends (doc : YamlDocument) :
    (walkNode doc doc.aliases.length [] [] doc.contents).isSome = true :=
  walkNode_ends doc List.countP_le_length doc.listed

/-- `walkNode(doc.contents ?? null, "", ctx)`. -/
def YamlDocument.walked (doc : YamlDocument) : Walked :=
  (walkNode doc doc.aliases.length [] [] doc.contents).get (walk_ends doc)

/-! ## What the walk reports -/

/-- A diagnostic of the walk. -/
def IsComplaint (diagnostic : Diagnostic) : Prop :=
  diagnostic.code = js "SPC0001" ∧ diagnostic.severity = .error

section Complaints

variable {onAlias : Nat → JsString → Option Walked}

theorem complaints_report {walked : Option Walked} {diagnostics : List Diagnostic} {reported : Walked}
    (same : walked.map (·.report diagnostics) = some reported)
    (first : ∀ diagnostic ∈ diagnostics, IsComplaint diagnostic)
    (rest : ∀ found, walked = some found →
      ∀ diagnostic ∈ found.diagnostics, IsComplaint diagnostic) :
    ∀ diagnostic ∈ reported.diagnostics, IsComplaint diagnostic := by
  obtain ⟨found, here, rfl⟩ := Option.map_eq_some_iff.mp same
  exact List.forall_mem_append.mpr ⟨first, rest found here⟩

theorem walkWith_complaints
    (follows : ∀ id path walked, onAlias id path = some walked →
      ∀ diagnostic ∈ walked.diagnostics, IsComplaint diagnostic) {node : YamlNode} :
    ∀ {path : JsString} {walked : Walked}, walkWith onAlias path node = some walked →
      ∀ diagnostic ∈ walked.diagnostics, IsComplaint diagnostic := by
  refine @YamlNode.rec
    (fun node => ∀ {path walked}, walkWith onAlias path node = some walked →
      ∀ diagnostic ∈ walked.diagnostics, IsComplaint diagnostic)
    (fun items => ∀ path index walked, walkItems onAlias path index items = some walked →
      ∀ diagnostic ∈ walked.2, IsComplaint diagnostic)
    (fun pairs => ∀ path object seen walked, walkPairs onAlias path object seen pairs = some walked →
      ∀ diagnostic ∈ walked.diagnostics, IsComplaint diagnostic)
    (fun pair => ∀ path walked, walkWith onAlias path pair.2 = some walked →
      ∀ diagnostic ∈ walked.diagnostics, IsComplaint diagnostic)
    ?absent ?aliased ?scalar ?seq ?map ?other ?noItems ?items ?noPairs ?pairs ?pair node
  case absent =>
    intro path walked same
    cases same
    exact List.forall_mem_nil _
  case aliased => intro id path walked same; exact follows id path walked same
  case scalar =>
    intro value path walked same
    cases same
    exact List.forall_mem_nil _
  case seq =>
    intro items inductionHypothesis path walked same
    rw [walkWith] at same
    obtain ⟨found, here, rfl⟩ := Option.map_eq_some_iff.mp same
    exact inductionHypothesis path 0 found here
  case map =>
    intro pairs inductionHypothesis path walked same
    exact inductionHypothesis path _ _ walked same
  case other =>
    intro path walked same
    cases same
    exact List.forall_mem_singleton.mpr ⟨rfl, rfl⟩
  case noItems =>
    intro path index walked same
    cases same
    exact List.forall_mem_nil _
  case items =>
    intro item rest first others path index walked same
    rw [walkItems] at same
    obtain ⟨found, here, same⟩ := Option.bind_eq_some_iff.mp same
    obtain ⟨later, there, rfl⟩ := Option.map_eq_some_iff.mp same
    exact List.forall_mem_append.mpr ⟨first here, others path (index + 1) later there⟩
  case noPairs =>
    intro path object seen walked same
    cases same
    exact List.forall_mem_nil _
  case pairs =>
    intro pair rest first others path object seen walked same
    obtain ⟨keyNode, valueNode⟩ := pair
    rw [walkPairs] at same
    cases text : keyNode.keyText with
    | none =>
        rw [text] at same
        exact complaints_report same (List.forall_mem_singleton.mpr ⟨rfl, rfl⟩) (others path _ _)
    | some key =>
        rw [text] at same
        simp only at same
        split_ifs at same with known
        · exact complaints_report same (List.forall_mem_singleton.mpr ⟨rfl, rfl⟩) (others path _ _)
        · obtain ⟨found, here, same⟩ := Option.bind_eq_some_iff.mp same
          exact complaints_report same (first _ found here) (others path _ _)
  case pair => intro keyNode valueNode _ value path walked same; exact value same

end Complaints

theorem walkNode_complaints (doc : YamlDocument) {fuel : Nat} :
    ∀ {aliases : List Nat} {path : JsString} {node : YamlNode} {walked : Walked},
      walkNode doc fuel aliases path node = some walked →
      ∀ diagnostic ∈ walked.diagnostics, IsComplaint diagnostic := by
  have cyclic : ∀ (path : JsString), ∀ diagnostic ∈ [cyclicAlias path], IsComplaint diagnostic :=
    fun path => List.forall_mem_singleton.mpr ⟨rfl, rfl⟩
  induction fuel with
  | zero =>
      intro aliases path node walked same
      refine walkWith_complaints (fun id path walked followed => ?_) same
      split_ifs at followed with again
      cases followed
      exact cyclic path
  | succ fuel inductionHypothesis =>
      intro aliases path node walked same
      refine walkWith_complaints (fun id path walked followed => ?_) same
      split_ifs at followed with again
      · cases followed
        exact cyclic path
      · exact inductionHypothesis followed

theorem YamlDocument.walked_eq (doc : YamlDocument) :
    walkNode doc doc.aliases.length [] [] doc.contents = some doc.walked :=
  (Option.some_get _).symm

/-! ## Where a document begins -/

mutual

/-- The scalar that stands before all others of a node. -/
def YamlNode.firstScalar : YamlNode → Option ScalarValue
  | .scalar value => some value
  | .seq items => firstOfItems items
  | .map pairs => firstOfPairs pairs
  | _ => none

def firstOfItems : List YamlNode → Option ScalarValue
  | [] => none
  | item :: _ => item.firstScalar

def firstOfPairs : List (YamlNode × YamlNode) → Option ScalarValue
  | [] => none
  | (key, _) :: _ => key.firstScalar

end

/-- The names of the own properties. -/
def RawValue.keys (value : RawValue) : List JsString :=
  (value.members?.getD []).map Prod.fst

theorem mem_keys_setMember {key other : JsString} {value : RawValue} {members : RawMembers} :
    other ∈ (setMember key value members).map Prod.fst ↔
      other = key ∨ other ∈ members.map Prod.fst := by
  induction members with
  | nil => simp [setMember]
  | cons member rest inductionHypothesis =>
      obtain ⟨name, old⟩ := member
      rw [setMember]
      split_ifs with same before
      · simp [same]
      · simp
      · simp only [List.map_cons, List.mem_cons, inductionHypothesis]
        tauto

theorem keys_setPrototype (object value : RawValue) :
    (object.setPrototype value).members? = object.members? := by
  cases object with
  | object members =>
      cases value with
      | scalar value => cases value <;> rfl
      | _ => rfl
  | _ => rfl

/-- What an assignment to an object leaves and adds. -/
theorem assign_keys {object : RawValue} (isObject : object.members?.isSome = true) (key : JsString)
    (value : RawValue) :
    (object.assign key value).members?.isSome = true ∧
      (∀ other ∈ object.keys, other ∈ (object.assign key value).keys) ∧
      (key ≠ protoKey → key ∈ (object.assign key value).keys) := by
  rw [RawValue.assign]
  split_ifs with proto
  · rw [RawValue.keys, RawValue.keys, keys_setPrototype]
    exact ⟨isObject, fun _ here => here, fun different => absurd proto different⟩
  · cases object with
    | scalar => cases isObject
    | array => cases isObject
    | _ =>
        exact ⟨rfl, fun other here => mem_keys_setMember.mpr (Or.inr here),
          fun _ => mem_keys_setMember.mpr (Or.inl rfl)⟩

section Keys

variable {onAlias : Nat → JsString → Option Walked}

/-- The pairs that are left only add properties. -/
theorem walkPairs_keys {pairs : List (YamlNode × YamlNode)} :
    ∀ {path : JsString} {object : RawValue} {seen : List JsString} {walked : Walked},
      object.members?.isSome = true → walkPairs onAlias path object seen pairs = some walked →
      walked.value.members?.isSome = true ∧ ∀ key ∈ object.keys, key ∈ walked.value.keys := by
  induction pairs with
  | nil =>
      intro path object seen walked isObject same
      cases same
      exact ⟨isObject, fun _ here => here⟩
  | cons pair rest inductionHypothesis =>
      intro path object seen walked isObject same
      obtain ⟨keyNode, valueNode⟩ := pair
      rw [walkPairs] at same
      cases text : keyNode.keyText with
      | none =>
          rw [text] at same
          obtain ⟨found, here, rfl⟩ := Option.map_eq_some_iff.mp same
          have kept := inductionHypothesis isObject here
          exact kept
      | some key =>
          rw [text] at same
          simp only at same
          split_ifs at same with known
          · obtain ⟨found, here, rfl⟩ := Option.map_eq_some_iff.mp same
            have kept := inductionHypothesis isObject here
            exact kept
          · obtain ⟨value, -, same⟩ := Option.bind_eq_some_iff.mp same
            obtain ⟨found, here, rfl⟩ := Option.map_eq_some_iff.mp same
            obtain ⟨assigned, kept, -⟩ := assign_keys isObject key value.value
            obtain ⟨holds, later⟩ := inductionHypothesis assigned here
            exact ⟨holds, fun other old => later other (kept other old)⟩

/-- A mapping is complained about, or its first key is a property. -/
theorem walkPairs_first {keyNode valueNode : YamlNode} {rest : List (YamlNode × YamlNode)}
    {path : JsString} {walked : Walked}
    (same : walkPairs onAlias path (.object []) [] ((keyNode, valueNode) :: rest) = some walked) :
    complexKey path ∈ walked.diagnostics ∨
      ∃ key, keyNode.keyText = some key ∧ (key ≠ protoKey → key ∈ walked.value.keys) := by
  rw [walkPairs] at same
  cases text : keyNode.keyText with
  | none =>
      rw [text] at same
      obtain ⟨found, -, rfl⟩ := Option.map_eq_some_iff.mp same
      exact Or.inl (List.mem_append_left _ List.mem_cons_self)
  | some key =>
      rw [text] at same
      simp only [List.not_mem_nil, if_false] at same
      obtain ⟨value, -, same⟩ := Option.bind_eq_some_iff.mp same
      obtain ⟨found, here, rfl⟩ := Option.map_eq_some_iff.mp same
      obtain ⟨assigned, -, added⟩ := @assign_keys (.object []) rfl key value.value
      exact Or.inr ⟨key, rfl, fun visible => (walkPairs_keys assigned here).2 key (added visible)⟩

end Keys

theorem walkNode_eq (doc : YamlDocument) (fuel : Nat) (aliases : List Nat) :
    ∃ onAlias, walkNode doc fuel aliases = walkWith onAlias := by
  cases fuel with
  | zero => exact ⟨_, rfl⟩
  | succ fuel => exact ⟨_, rfl⟩

/-- Where a document that begins with a text goes: to a value that is no object, to a complaint,
or to a property with the text as its name. -/
theorem walked_of_firstScalar {doc : YamlDocument} {text : JsString}
    (first : doc.contents.firstScalar = some (.string text)) :
    doc.walked.value.members? = none ∨ complexKey [] ∈ doc.walked.diagnostics ∨
      (text ≠ protoKey → text ∈ doc.walked.value.keys) := by
  obtain ⟨onAlias, same⟩ := walkNode_eq doc doc.aliases.length []
  have walked := doc.walked_eq
  rw [same] at walked
  cases contents : doc.contents with
  | absent => rw [contents] at first; cases first
  | aliased id => rw [contents] at first; cases first
  | other => rw [contents] at first; cases first
  | scalar value =>
      rw [contents, walkWith, Option.some.injEq] at walked
      rw [← walked]
      exact Or.inl rfl
  | seq items =>
      rw [contents, walkWith] at walked
      obtain ⟨found, -, same⟩ := Option.map_eq_some_iff.mp walked
      rw [← same]
      exact Or.inl rfl
  | map pairs =>
      rw [contents] at first
      rw [contents, walkWith] at walked
      cases pairs with
      | nil => cases first
      | cons pair rest =>
          obtain ⟨keyNode, valueNode⟩ := pair
          rcases walkPairs_first walked with complaint | ⟨key, named, held⟩
          · exact Or.inr (Or.inl complaint)
          · refine Or.inr (Or.inr ?_)
            cases keyNode with
            | scalar value =>
                cases first
                cases named
                exact held
            | _ => cases named

end SpecAsCode.Compiler
