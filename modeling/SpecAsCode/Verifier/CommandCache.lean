import SpecAsCode.Lib.Terminated
import SpecAsCode.Text.Utf8Search
import SpecAsCode.Verifier.CommandScope
import SpecAsCode.Verifier.CommandVerdict

/-!
# The cache of command results

A clean result is kept with two digests of the packages that the filters of its command name.
It is used again where the digests are found again.
-/

namespace SpecAsCode.Verifier

open SpecAsCode.Js
open SpecAsCode.Lib
open SpecAsCode.Core (segments)
open SpecAsCode.Executor (Tree)
open SpecAsCode.Repo
open SpecAsCode.Text

/-! ## What a package has -/

/-- A path inside a package that holds what is installed or built. -/
def isGenerated (rest : JsString) : Bool :=
  (segments rest).contains (js "node_modules") || (segments rest).contains (js "dist")

namespace Workspace

variable (workspace : Workspace) (directory : JsString)

/-- The tracked sources of a package. -/
def sources : Tree := fun path =>
  if path ∈ workspace.tracked ∧ (pathInside directory path).any fun rest => !isGenerated rest then
    workspace.tree path
  else
    none

/-- What a package has below `dist`. -/
def dist : Tree := fun path =>
  if (pathInside (inDirectory directory (js "dist")) path).isSome then workspace.tree path else none

end Workspace

/-- A package has the same sources and the same artifacts in two trees. -/
def SamePackage (first second : Workspace) (directory : JsString) : Prop :=
  first.sources directory = second.sources directory ∧ first.dist directory = second.dist directory

theorem SamePackage.symm {first second : Workspace} {directory : JsString}
    (same : SamePackage first second directory) : SamePackage second first directory :=
  ⟨same.1.symm, same.2.symm⟩

theorem SamePackage.trans {first second third : Workspace} {directory : JsString}
    (same : SamePackage first second directory) (next : SamePackage second third directory) :
    SamePackage first third directory :=
  ⟨same.1.trans next.1, same.2.trans next.2⟩

/-! ## Digests -/

/-- The files that `sourceDigest` reads; `none` when one of them cannot be read. -/
def sourceFiles (workspace : Workspace) (directories : List JsString) :
    Option (List (JsString × List Octet)) :=
  (trackedFiles workspace directories).mapM fun file =>
    (workspace.tree file).map fun content => (file, content)

/-- The artifacts of a package in the order of the walk. -/
def distFiles (workspace : Workspace) (directory : JsString) : List (JsString × List Octet) :=
  (workspace.files.filterMap fun path =>
    (pathInside (inDirectory directory (js "dist")) path).bind fun rest =>
      (workspace.tree path).map fun content => (js "dist/" ++ rest, content)).insertionSort
    fun first second => segments first.1 ≤ segments second.1

/-- `h.update(name)`, `h.update("\u0000")`, `h.update(content)` and `h.update("\u0000")` for every
file. -/
def hashInput (files : List (JsString × List Octet)) : List Octet :=
  writeRecords 0 (files.map fun file => (encodeUtf8 file.1, file.2))

/-- `CacheEntry`. -/
structure CacheEntry where
  scopeKey : JsString
  sourceDigest : JsString
  distDigest : JsString
  result : CachedRunResult

abbrev CommandCache :=
  OrderedMap JsString CacheEntry

/-- `JSON.stringify({ packages: scope.packages, withDeps: scope.withDeps })`. -/
def CacheScope.key (scope : CacheScope) : JsString :=
  (JsValue.object [(js "packages", scope.packages.elim .null fun names => .array (names.map .string)),
    (js "withDeps", .bool scope.withDeps)]).stringify

section Cache

variable (sha256Hex : List Octet → JsString)

def sourceDigest (workspace : Workspace) (directories : List JsString) : Option JsString :=
  (sourceFiles workspace directories).map fun files =>
    js "sha256:" ++ sha256Hex (hashInput files)

/-- A `dist` that is a file cannot be walked. -/
def distDigest (workspace : Workspace) (directories : List JsString) : Option JsString :=
  if directories.any fun directory =>
      (workspace.tree (inDirectory directory (js "dist"))).isSome then
    none
  else
    let files := directories.flatMap (distFiles workspace)
    some (if files = [] then js "absent" else js "sha256:" ++ sha256Hex (hashInput files))

/-- What is kept with a result of a command; `none` when it cannot be computed. -/
def cacheEntry (root : Workspace) (scope : CacheScope) (result : CachedRunResult) :
    Option CacheEntry :=
  (resolveScopeDirs root scope).bind fun directories =>
    (sourceDigest sha256Hex root directories).bind fun source =>
      (distDigest sha256Hex root directories).map fun dist => ⟨scope.key, source, dist, result⟩

/-- `CommandCache.record`; `none` when it throws. -/
def CommandCache.record (cache : CommandCache) (root : Workspace) (command : JsString)
    (result : CachedRunResult) : Option CommandCache :=
  match parseFilterScope command with
  | none => some cache
  | some scope => (cacheEntry sha256Hex root scope result).map (cache.set command)

/-- `CommandCache.reusable`; `none` for `null` and when it throws. -/
def CommandCache.reusable (cache : CommandCache) (root : Workspace) (command : JsString) :
    Option CachedRunResult :=
  (cache.get? command).bind fun entry =>
    (parseFilterScope command).bind fun scope =>
      if scope.key ≠ entry.scopeKey then
        none
      else
        (resolveScopeDirs root scope).bind fun directories =>
          if sourceDigest sha256Hex root directories = some entry.sourceDigest ∧
              distDigest sha256Hex root directories = some entry.distDigest then
            some entry.result
          else
            none

end Cache

/-! ## Names in a digest -/

/-- A printable ASCII character. -/
def IsPrintable (code : CodeUnit) : Prop :=
  32 ≤ code.val ∧ code.val < 127

instance (code : CodeUnit) : Decidable (IsPrintable code) :=
  inferInstanceAs (Decidable (_ ∧ _))

theorem isPrintable_ofNat {value : Nat} (low : 32 ≤ value) (high : value < 127) :
    IsPrintable (Fin.ofNat 65536 value) := by
  have whole : value % 65536 = value := Nat.mod_eq_of_lt (by omega)
  rw [IsPrintable, Fin.val_ofNat, whole]
  exact ⟨low, high⟩

theorem isPrintable_escapeLetter (octet : Octet) : IsPrintable (escapeLetter octet) := by
  rw [escapeLetter]
  cases letter : (js "abtnvfr")[octet.val - 7]? with
  | none => decide
  | some code =>
      have letters : (js "abtnvfr").all (fun code => decide (IsPrintable code)) = true := by
        decide +kernel
      exact of_decide_eq_true (List.all_eq_true.mp letters code (List.mem_of_getElem? letter))

theorem quoteOctet_printable (octet : Octet) : ∀ code ∈ quoteOctet octet, IsPrintable code := by
  have bound := octet.isLt
  have backslash : IsPrintable (unit '\\') := by decide
  rw [quoteOctet]
  split_ifs with mark letter digits
  · simp only [List.forall_mem_cons, List.not_mem_nil, false_implies, implies_true, and_true]
    exact ⟨backslash, isPrintable_ofNat (by omega) (by omega)⟩
  · simp only [List.forall_mem_cons, List.not_mem_nil, false_implies, implies_true, and_true]
    exact ⟨backslash, isPrintable_escapeLetter octet⟩
  · simp only [List.forall_mem_cons, List.not_mem_nil, false_implies, implies_true, and_true]
    exact ⟨backslash, isPrintable_ofNat (by omega) (by omega),
      isPrintable_ofNat (by omega) (by omega), isPrintable_ofNat (by omega) (by omega)⟩
  · simp only [List.forall_mem_cons, List.not_mem_nil, false_implies, implies_true, and_true]
    exact isPrintable_ofNat (by omega) (by omega)

theorem lsFilesName_printable (path : JsString) :
    ∀ code ∈ lsFilesName path, IsPrintable code := by
  have printed : ∀ code ∈ printedName path, IsPrintable code := by
    intro code member
    obtain ⟨octet, -, inside⟩ := List.mem_flatMap.mp member
    exact quoteOctet_printable octet code inside
  have quote : IsPrintable (unit '\x22') := by decide
  intro code member
  rw [lsFilesName] at member
  split at member
  · next verbatim => exact printed code (by rwa [verbatim])
  · simp only [List.mem_cons, List.mem_append, List.not_mem_nil, or_false] at member
    rcases member with rfl | inside | rfl
    · exact quote
    · exact printed code inside
    · exact quote

theorem isWellFormedText_printable {text : JsString} (printable : ∀ code ∈ text, IsPrintable code) :
    isWellFormedText text = true := by
  induction text with
  | nil => rfl
  | cons code text inductionHypothesis =>
      rw [List.forall_mem_cons, IsPrintable] at printable
      refine isWellFormedText_cons ?_ (inductionHypothesis printable.2)
      simp only [isSurrogate, isHighSurrogate, isLowSurrogate, Bool.or_eq_false_iff,
        Bool.and_eq_false_iff, decide_eq_false_iff_not]
      omega

/-- A name that git prints as it is stands for one path. -/
theorem eq_of_lsFilesName_eq {path file : JsString} (verbatim : printedName file = file)
    (same : lsFilesName path = file) : path = file := by
  rw [lsFilesName] at same
  split at same
  · exact same
  · rw [← same] at verbatim
    have quoted := printedName_cons_quote (printedName path ++ [unit '\x22'])
    rw [verbatim, List.head?_cons, Option.some.injEq] at quoted
    exact absurd quoted (by decide)

theorem lsFilesName_verbatim {path : JsString} (verbatim : printedName path = path) :
    lsFilesName path = path :=
  if_pos verbatim

theorem pathInside_eq_some {directory path rest : JsString} (nonroot : directory ≠ []) :
    pathInside directory path = some rest ↔ path = directory ++ js "/" ++ rest := by
  have length : (directory ++ js "/").length = directory.length + 1 := List.length_append
  rw [pathInside, if_neg nonroot, startsWith]
  constructor
  · intro inside
    split at inside
    · next starts =>
        obtain ⟨tail, rfl⟩ := List.isPrefixOf_iff_prefix.mp starts
        rw [← length, List.drop_left, Option.some.injEq] at inside
        rw [inside]
    · cases inside
  · rintro rfl
    rw [if_pos (List.isPrefixOf_iff_prefix.mpr (List.prefix_append _ _)), ← length, List.drop_left]

theorem inDirectory_ne_nil (directory : JsString) : inDirectory directory (js "dist") ≠ [] := by
  rw [inDirectory]
  split
  · decide
  · exact List.append_ne_nil_of_right_ne_nil _ (by decide)

/-- The names that a digest reads are told apart by their octets. -/
theorem Workspace.rest_wellFormed {workspace : Workspace} {directory path rest : JsString}
    (listed : path ∈ workspace.paths) (nonroot : directory ≠ [])
    (inside : pathInside directory path = some rest) :
    isWellFormedText rest = true ∧ (0 : CodeUnit) ∉ rest := by
  obtain ⟨wellFormed, free⟩ := workspace.named path listed
  rw [(pathInside_eq_some nonroot).mp inside] at wellFormed free
  rw [List.append_assoc] at wellFormed
  exact ⟨isWellFormedText_of_append (by decide) wellFormed,
    fun member => free (List.mem_append_right _ member)⟩

/-! ## What a digest tells apart -/

/-- The files under one name in the same place are read back from one another. -/
def SameEnds (files others : List (JsString × List Octet)) : Prop :=
  ∀ pair ∈ files.zip others, pair.1.1 = pair.2.1 → SameEnd 0 pair.1.2 pair.2.2

theorem SameEnds.refl (files : List (JsString × List Octet)) : SameEnds files files := by
  intro pair member _
  rw [List.zip, List.zipWith_self, List.mem_map] at member
  obtain ⟨file, -, rfl⟩ := member
  exact Or.inr rfl

/-- Every file has a name that a file can have. -/
def AllNamed (files : List (JsString × List Octet)) : Prop :=
  ∀ file ∈ files, isWellFormedText file.1 = true ∧ (0 : CodeUnit) ∉ file.1

theorem AllNamed.decoded {files : List (JsString × List Octet)} (named : AllNamed files) :
    (files.map fun file => (encodeUtf8 file.1, file.2)).map
      (fun record => (decodeUtf8 record.1, record.2)) = files := by
  rw [List.map_map]
  refine (List.map_congr_left fun file member => ?_).trans files.map_id
  exact Prod.ext (decodeUtf8_wellFormed (named file member).1) rfl

theorem AllNamed.free {files : List (JsString × List Octet)} (named : AllNamed files) :
    ∀ record ∈ files.map fun file => (encodeUtf8 file.1, file.2), (0 : Octet) ∉ record.1 := by
  intro record member
  obtain ⟨file, inside, rfl⟩ := List.mem_map.mp member
  exact zero_notMem_encodeUtf8 (named file inside).1 (named file inside).2

theorem hashInput_injective {files others : List (JsString × List Octet)}
    (named : AllNamed files) (otherNamed : AllNamed others) (ends : SameEnds files others)
    (same : hashInput files = hashInput others) : files = others := by
  have records : (files.map fun file => (encodeUtf8 file.1, file.2)) =
      others.map fun file => (encodeUtf8 file.1, file.2) := by
    refine writeRecords_injective named.free otherNamed.free ?_ same
    intro pair member keys
    rw [List.zip_map, List.mem_map] at member
    obtain ⟨⟨file, other⟩, inside, rfl⟩ := member
    obtain ⟨left, right⟩ := List.of_mem_zip inside
    exact ends (file, other) inside
      (encodeUtf8_injective (named file left).1 (otherNamed other right).1 keys)
  rw [← named.decoded, records, otherNamed.decoded]

theorem mapM_eq_some {Item Result : Type} {read : Item → Option Result} {items : List Item}
    {results : List Result} (all : items.mapM read = some results) :
    results = items.filterMap read := by
  induction items generalizing results with
  | nil =>
      cases all
      rfl
  | cons item items inductionHypothesis =>
      rw [List.mapM_cons] at all
      obtain ⟨result, first, rest⟩ := Option.bind_eq_some_iff.mp all
      obtain ⟨others, found, written⟩ := Option.bind_eq_some_iff.mp rest
      cases written
      rw [List.filterMap_cons_some first, inductionHypothesis found]

section Files

variable {workspace : Workspace} {directories : List JsString}

theorem mem_sourceFiles {files : List (JsString × List Octet)} {file : JsString}
    {content : List Octet} (found : sourceFiles workspace directories = some files) :
    (file, content) ∈ files ↔
      file ∈ trackedFiles workspace directories ∧ workspace.tree file = some content := by
  rw [mapM_eq_some found, List.mem_filterMap]
  constructor
  · rintro ⟨other, member, read⟩
    obtain ⟨octets, content, pair⟩ := Option.map_eq_some_iff.mp read
    cases pair
    exact ⟨member, content⟩
  · rintro ⟨member, read⟩
    exact ⟨file, member, by rw [read, Option.map_some]⟩

theorem mem_distFiles {directory file : JsString} {content : List Octet} :
    (file, content) ∈ distFiles workspace directory ↔
      ∃ path rest, pathInside (inDirectory directory (js "dist")) path = some rest ∧
        workspace.tree path = some content ∧ file = js "dist/" ++ rest := by
  rw [distFiles, List.mem_insertionSort, List.mem_filterMap]
  constructor
  · rintro ⟨path, -, read⟩
    obtain ⟨rest, inside, read⟩ := Option.bind_eq_some_iff.mp read
    obtain ⟨octets, read, pair⟩ := Option.map_eq_some_iff.mp read
    cases pair
    exact ⟨path, rest, inside, read, rfl⟩
  · rintro ⟨path, rest, inside, read, rfl⟩
    refine ⟨path, workspace.mem_files read, ?_⟩
    rw [inside, Option.bind_some, read, Option.map_some]

theorem allNamed_sourceFiles {files : List (JsString × List Octet)}
    (found : sourceFiles workspace directories = some files) : AllNamed files := by
  rintro ⟨file, content⟩ member
  obtain ⟨-, -, -, ⟨path, -, rfl⟩, -⟩ := mem_trackedFiles.mp ((mem_sourceFiles found).mp member).1
  refine ⟨isWellFormedText_printable (lsFilesName_printable path), fun zero => ?_⟩
  exact absurd (lsFilesName_printable path 0 zero).1 (by decide)

theorem allNamed_distFiles : AllNamed (directories.flatMap (distFiles workspace)) := by
  rintro ⟨file, content⟩ member
  obtain ⟨directory, -, member⟩ := List.mem_flatMap.mp member
  obtain ⟨path, rest, inside, read, rfl⟩ := mem_distFiles.mp member
  obtain ⟨wellFormed, free⟩ :=
    Workspace.rest_wellFormed (workspace.mem_paths read) (inDirectory_ne_nil directory) inside
  refine ⟨isWellFormedText_append (by decide) wellFormed, ?_⟩
  rw [List.mem_append, not_or]
  exact ⟨by decide, free⟩

end Files

/-! ## What a digest says of a package -/

/-- The digests of some directories cover a package of a tree that commands are executed in. -/
structure DigestCovers (root executed : Workspace) (directories : List JsString)
    (directory : JsString) : Prop where
  resolved : directory ∈ directories
  nonroot : directory ≠ []
  answers : root.gitAnswers = true
  /-- The sources are printed as they are, and none is left out. -/
  listed : ∀ path, root.sources directory path ≠ none →
    printedName path = path ∧ isExcluded path = false
  executed : SamePackage root executed directory

/-- What is hashed of some directories can be told apart in two trees. -/
structure DigestsCompare (recorded current : Workspace) (directories : List JsString) : Prop where
  sources : ∀ files others, sourceFiles recorded directories = some files →
    sourceFiles current directories = some others → SameEnds files others
  dist : SameEnds (directories.flatMap (distFiles recorded))
    (directories.flatMap (distFiles current))
  /-- A package is not known by the names of its artifacts. -/
  counts : ∀ directory ∈ directories.dropLast,
    (distFiles recorded directory).length = (distFiles current directory).length

section Packages

variable {sha256Hex : List Octet → JsString} {recorded current executed executing : Workspace}
  {directories : List JsString} {directory : JsString}

theorem Workspace.sources_eq_some {workspace : Workspace} {path : JsString}
    {content : List Octet} : workspace.sources directory path = some content ↔
      path ∈ workspace.tracked ∧ (∃ rest, pathInside directory path = some rest ∧
        isGenerated rest = false) ∧ workspace.tree path = some content := by
  have part : ((pathInside directory path).any fun rest => !isGenerated rest) = true ↔
      ∃ rest, pathInside directory path = some rest ∧ isGenerated rest = false := by
    cases pathInside directory path <;> simp
  rw [← part, Workspace.sources]
  split
  · next inside => rw [← and_assoc, and_iff_right inside]
  · next outside =>
      refine ⟨fun impossible => absurd impossible nofun, fun found => ?_⟩
      exact absurd ⟨found.1, found.2.1⟩ outside

/-- A source of a package that is covered is one of the files that are read. -/
theorem DigestCovers.read (covers : DigestCovers recorded executed directories directory)
    {path : JsString} {content : List Octet}
    (source : recorded.sources directory path = some content)
    {files : List (JsString × List Octet)}
    (found : sourceFiles recorded directories = some files) : (path, content) ∈ files := by
  obtain ⟨verbatim, kept⟩ := covers.listed path (by rw [source]; exact nofun)
  obtain ⟨tracked, ⟨rest, inside, -⟩, content⟩ := Workspace.sources_eq_some.mp source
  have spelled := (pathInside_eq_some covers.nonroot).mp inside
  refine (mem_sourceFiles found).mpr ⟨mem_trackedFiles.mpr ⟨covers.answers, ?_, kept,
    ⟨path, tracked, lsFilesName_verbatim verbatim⟩, directory, covers.resolved, ?_⟩, content⟩
  · rw [spelled, List.append_assoc]
    exact List.append_ne_nil_of_left_ne_nil covers.nonroot _
  · rw [isUnder, spelled, startsWith, List.isPrefixOf_iff_prefix.mpr (List.prefix_append _ _),
      Bool.true_or]

/-- A source of one tree is a source of another one with the same files in its digest. -/
theorem DigestCovers.sources_le (covers : DigestCovers recorded executed directories directory)
    {files : List (JsString × List Octet)}
    (found : sourceFiles recorded directories = some files)
    (again : sourceFiles current directories = some files) {path : JsString}
    {content : List Octet} (source : recorded.sources directory path = some content) :
    current.sources directory path = some content := by
  obtain ⟨verbatim, -⟩ := covers.listed path (by rw [source]; exact nofun)
  obtain ⟨-, inside, -⟩ := Workspace.sources_eq_some.mp source
  obtain ⟨listed, read⟩ := (mem_sourceFiles again).mp (covers.read source found)
  obtain ⟨-, -, -, ⟨other, tracked, printed⟩, -⟩ := mem_trackedFiles.mp listed
  rw [eq_of_lsFilesName_eq verbatim printed] at tracked
  exact Workspace.sources_eq_some.mpr ⟨tracked, inside, read⟩

theorem sources_eq (covers : DigestCovers recorded executed directories directory)
    (again : DigestCovers current executing directories directory)
    {files : List (JsString × List Octet)}
    (found : sourceFiles recorded directories = some files)
    (foundAgain : sourceFiles current directories = some files) :
    recorded.sources directory = current.sources directory := by
  funext path
  refine Option.ext fun content => ⟨fun source => ?_, fun source => ?_⟩
  · exact covers.sources_le found foundAgain source
  · exact again.sources_le foundAgain found source

theorem dist_eq (same : distFiles recorded directory = distFiles current directory) :
    recorded.dist directory = current.dist directory := by
  have forth : ∀ {first second : Workspace} {path : JsString} {content : List Octet},
      distFiles first directory = distFiles second directory →
        first.dist directory path = some content → second.dist directory path = some content := by
    intro first second path content same source
    rw [Workspace.dist] at source
    split at source
    · next inside =>
        obtain ⟨rest, inside⟩ := Option.isSome_iff_exists.mp inside
        have member : (js "dist/" ++ rest, content) ∈ distFiles first directory :=
          mem_distFiles.mpr ⟨path, rest, inside, source, rfl⟩
        rw [same] at member
        obtain ⟨other, otherRest, otherInside, read, names⟩ := mem_distFiles.mp member
        rw [List.append_cancel_left_eq] at names
        have nonroot := inDirectory_ne_nil directory
        have spelled := (pathInside_eq_some nonroot).mp inside
        have otherSpelled := (pathInside_eq_some nonroot).mp otherInside
        rw [← names, ← spelled] at otherSpelled
        rw [Workspace.dist, inside, if_pos Option.isSome_some, ← otherSpelled, read]
    · cases source
  funext path
  exact Option.ext fun content => ⟨forth same, forth same.symm⟩

theorem sourceFiles_eq (injective : Function.Injective sha256Hex)
    (compare : DigestsCompare recorded current directories) {digest : JsString}
    (recordedDigest : sourceDigest sha256Hex recorded directories = some digest)
    (currentDigest : sourceDigest sha256Hex current directories = some digest) :
    ∃ files, sourceFiles recorded directories = some files ∧
      sourceFiles current directories = some files := by
  obtain ⟨files, found, rfl⟩ := Option.map_eq_some_iff.mp recordedDigest
  obtain ⟨others, foundAgain, same⟩ := Option.map_eq_some_iff.mp currentDigest
  have inputs := injective (List.append_cancel_left same)
  have equal := hashInput_injective (allNamed_sourceFiles found) (allNamed_sourceFiles foundAgain)
    (compare.sources files others found foundAgain) inputs.symm
  exact ⟨files, found, equal ▸ foundAgain⟩

theorem distFiles_eq (injective : Function.Injective sha256Hex)
    (compare : DigestsCompare recorded current directories) {digest : JsString}
    (recordedDigest : distDigest sha256Hex recorded directories = some digest)
    (currentDigest : distDigest sha256Hex current directories = some digest) :
    ∀ directory ∈ directories, distFiles recorded directory = distFiles current directory := by
  refine flatMap_injective_of_lengths ?_ compare.counts
  have apart : ∀ text, js "absent" ≠ js "sha256:" ++ text := by
    intro text same
    exact absurd (List.cons.inj same).1 (by decide)
  have whole : ∀ {workspace : Workspace}, distDigest sha256Hex workspace directories = some digest →
      digest = if directories.flatMap (distFiles workspace) = [] then js "absent" else
        js "sha256:" ++ sha256Hex (hashInput (directories.flatMap (distFiles workspace))) := by
    intro workspace found
    rw [distDigest] at found
    split at found
    · cases found
    · exact (Option.some.inj found).symm
  have same := (whole recordedDigest).symm.trans (whole currentDigest)
  split_ifs at same with none noneAgain noneAgain
  · rw [none, noneAgain]
  · exact absurd same (apart _)
  · exact absurd same.symm (apart _)
  · exact hashInput_injective allNamed_distFiles allNamed_distFiles compare.dist
      (injective (List.append_cancel_left same))

/-- Equal digests stand for equal packages. -/
theorem samePackage_of_digests (injective : Function.Injective sha256Hex)
    (covers : DigestCovers recorded executed directories directory)
    (again : DigestCovers current executing directories directory)
    (compare : DigestsCompare recorded current directories) {source dist : JsString}
    (recordedSource : sourceDigest sha256Hex recorded directories = some source)
    (currentSource : sourceDigest sha256Hex current directories = some source)
    (recordedDist : distDigest sha256Hex recorded directories = some dist)
    (currentDist : distDigest sha256Hex current directories = some dist) :
    SamePackage executed executing directory := by
  obtain ⟨files, found, foundAgain⟩ := sourceFiles_eq injective compare recordedSource currentSource
  have roots : SamePackage recorded current directory :=
    ⟨sources_eq covers again found foundAgain, dist_eq
      (distFiles_eq injective compare recordedDist currentDist directory covers.resolved)⟩
  exact covers.executed.symm.trans (roots.trans again.executed)

end Packages

end SpecAsCode.Verifier
