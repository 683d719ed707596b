import SpecAsCode.Runtime.LogFile

/-!
# Reading interrupted logs

What a log file is read as when its last line is complete, torn or without its newline,
and when another record was appended to such a line.
-/

namespace SpecAsCode.Runtime

open SpecAsCode.Js
open SpecAsCode.Text

section Reader

variable {Record Store Refusal : Type} {reader : LogReader Record Store Refusal}

/-- The text is the line of a record. -/
structure RecordLine (reader : LogReader Record Store Refusal) (text : JsString)
    (record : Record) : Prop where
  line : LineText text
  reads : ∃ value, parseJson text = some value ∧ reader.schema value = some record

/-- The records are pushed one after another. -/
def Accepts (reader : LogReader Record Store Refusal) (store : Store) (records : List Record)
    (next : Store) : Prop :=
  records.foldlM reader.accept store = .ok next

theorem Accepts.nil (store : Store) : Accepts reader store [] store := rfl

theorem Accepts.head {store middle next : Store} {record : Record} {records : List Record}
    (first : reader.accept store record = .ok middle) (later : Accepts reader middle records next) :
    Accepts reader store (record :: records) next := by
  rw [Accepts, List.foldlM_cons, first]
  exact later

theorem accepts_cons {store next : Store} {record : Record} {records : List Record}
    (accepts : Accepts reader store (record :: records) next) :
    ∃ middle, reader.accept store record = .ok middle ∧ Accepts reader middle records next := by
  rw [Accepts, List.foldlM_cons] at accepts
  cases first : reader.accept store record with
  | error refusal => rw [first] at accepts; cases accepts
  | ok middle =>
      rw [first] at accepts
      exact ⟨middle, rfl, accepts⟩

theorem Accepts.append {store middle next : Store} {records others : List Record}
    (before : Accepts reader store records middle) (later : Accepts reader middle others next) :
    Accepts reader store (records ++ others) next := by
  induction records generalizing store with
  | nil =>
      cases before
      exact later
  | cons first records inductionHypothesis =>
      obtain ⟨other, accepted, rest⟩ := accepts_cons before
      exact Accepts.head accepted (inductionHypothesis rest)

theorem accepts_snoc {store next : Store} {records : List Record} {record : Record}
    (accepts : Accepts reader store (records ++ [record]) next) :
    ∃ middle, Accepts reader store records middle ∧ reader.accept middle record = .ok next := by
  rw [Accepts, List.foldlM_append] at accepts
  cases first : records.foldlM reader.accept store with
  | error refusal => rw [first] at accepts; cases accepts
  | ok middle =>
      rw [first] at accepts
      obtain ⟨final, accepted, later⟩ := accepts_cons accepts
      cases later
      exact ⟨middle, first, accepted⟩

theorem loadLine_record {text : JsString} {record : Record} (line : RecordLine reader text record)
    (tornTail : Bool) (number : Nat) (store : Store) :
    loadLine reader tornTail number store text =
      match reader.accept store record with
      | .error refusal => .error (.refused number refusal)
      | .ok next => .ok next := by
  obtain ⟨value, parsed, valid⟩ := line.reads
  rw [loadLine, line.line.trim_eq, if_neg line.line.ne_nil]
  cases accepted : reader.accept store record with
  | error refusal => simp only [parsed, valid, accepted]
  | ok next => simp only [parsed, valid, accepted]

/-- Complete lines are read and pushed. -/
theorem loadLines_records {texts : List JsString} {records : List Record}
    (lines : List.Forall₂ (RecordLine reader) texts records) {store next : Store}
    (accepts : Accepts reader store records next) (complete : Bool) (number : Nat)
    (rest : List JsString) :
    loadLines reader complete number store (texts ++ rest) =
      loadLines reader complete (number + texts.length) next rest := by
  induction lines generalizing store number with
  | nil =>
      cases accepts
      rfl
  | @cons text record texts records line lines inductionHypothesis =>
      obtain ⟨middle, first, later⟩ := accepts_cons accepts
      rw [List.cons_append, loadLines, loadLine_record line, first, Except.bind,
        inductionHypothesis later, List.length_cons, Nat.add_assoc, Nat.add_comm 1]

theorem RecordLine.lineTexts {texts : List JsString} {records : List Record}
    (lines : List.Forall₂ (RecordLine reader) texts records) :
    ∀ text ∈ texts, LineText text := by
  intro text member
  induction lines with
  | nil => cases member
  | cons line _ inductionHypothesis =>
      rcases List.mem_cons.mp member with rfl | later
      · exact line.line
      · exact inductionHypothesis later

/-- The reader that checks nothing but the schema. -/
def collector (schema : JsValue → Option Record) : LogReader Record (List Record) Empty :=
  ⟨schema, fun records record => .ok (records ++ [record])⟩

private theorem loadLine_collect {torn : Bool} {number : Nat} {store next : Store}
    {line : JsString} (read : loadLine reader torn number store line = .ok next) :
    ∃ records : List Record, Accepts reader store records next ∧ ∀ collected,
      loadLine (collector reader.schema) torn number collected line =
        .ok (collected ++ records) := by
  rw [loadLine] at read
  split at read
  next blank =>
    cases read
    exact ⟨[], Accepts.nil store, fun collected => by rw [loadLine, if_pos blank]; simp⟩
  next solid =>
    cases parsed : parseJson (trim line) with
    | none =>
        simp only [parsed] at read
        cases torn <;> cases read
        refine ⟨[], Accepts.nil store, fun collected => ?_⟩
        rw [loadLine, if_neg solid]
        simp [parsed]
    | some value =>
        simp only [parsed] at read
        cases valid : reader.schema value with
        | none =>
            simp only [valid] at read
            cases torn <;> cases read
            refine ⟨[], Accepts.nil store, fun collected => ?_⟩
            rw [loadLine, if_neg solid]
            simp [parsed, collector, valid]
        | some record =>
            simp only [valid] at read
            cases accepted : reader.accept store record with
            | error refusal => rw [accepted] at read; cases read
            | ok pushed =>
                rw [accepted] at read
                cases read
                refine ⟨[record], Accepts.head accepted (Accepts.nil next), fun collected => ?_⟩
                rw [loadLine, if_neg solid]
                simp [parsed, collector, valid]

/-- What every record that passes the schema preserves holds of the loaded store. -/
theorem loadFile_invariant {Inv : Store → Prop} {fresh store : Store} {file : Option (List Octet)}
    (loaded : loadFile reader fresh file = .ok store) (initial : Inv fresh)
    (step : ∀ value record before after, reader.schema value = some record →
      reader.accept before record = .ok after → Inv before → Inv after) : Inv store := by
  have lineStep : ∀ torn number before after line,
      loadLine reader torn number before line = .ok after → Inv before → Inv after := by
    intro torn number before after line read holds
    rw [loadLine] at read
    split at read
    next =>
      cases read
      exact holds
    next =>
      split at read
      next =>
        cases torn <;> cases read
        exact holds
      next value _ =>
        split at read
        next =>
          cases torn <;> cases read
          exact holds
        next record valid =>
          split at read
          next => cases read
          next next accepted =>
            cases read
            exact step value record before after valid accepted holds
  have linesStep : ∀ lines complete number before after,
      loadLines reader complete number before lines = .ok after → Inv before → Inv after := by
    intro lines
    induction lines with
    | nil =>
        intro complete number before after read holds
        cases read
        exact holds
    | cons line rest inductionHypothesis =>
        intro complete number before after read holds
        rw [loadLines] at read
        cases first : loadLine reader (rest.isEmpty && !complete) number before line with
        | error error => rw [first] at read; cases read
        | ok middle =>
            rw [first] at read
            exact inductionHypothesis _ _ _ _ read (lineStep _ _ _ _ _ first holds)
  cases file with
  | none =>
      cases loaded
      exact initial
  | some octets => exact linesStep _ _ _ _ _ loaded initial

/-- An accepted log is its records, pushed one after another. -/
theorem loadFile_collect {fresh store : Store} {file : Option (List Octet)}
    (loaded : loadFile reader fresh file = .ok store) :
    ∃ records, Accepts reader fresh records store ∧
      loadFile (collector reader.schema) [] file = .ok records := by
  have linesCollect : ∀ lines complete number store next,
      loadLines reader complete number store lines = .ok next →
      ∃ records : List Record, Accepts reader store records next ∧ ∀ collected,
        loadLines (collector reader.schema) complete number collected lines =
          .ok (collected ++ records) := by
    intro lines
    induction lines with
    | nil =>
        intro complete number store next read
        cases read
        exact ⟨[], Accepts.nil store, fun collected => by rw [loadLines, List.append_nil]⟩
    | cons line rest inductionHypothesis =>
        intro complete number store next read
        rw [loadLines] at read
        cases first : loadLine reader (rest.isEmpty && !complete) number store line with
        | error error => rw [first] at read; cases read
        | ok middle =>
            rw [first] at read
            obtain ⟨records, accepts, collects⟩ := loadLine_collect first
            obtain ⟨others, later, collectsLater⟩ :=
              inductionHypothesis complete (number + 1) middle next read
            refine ⟨records ++ others, accepts.append later, fun collected => ?_⟩
            rw [loadLines, collects, Except.bind, collectsLater, List.append_assoc]
  cases file with
  | none =>
      cases loaded
      exact ⟨[], Accepts.nil fresh, rfl⟩
  | some octets =>
      obtain ⟨records, accepts, collects⟩ := linesCollect _ _ _ _ _ loaded
      exact ⟨records, accepts, collects []⟩

variable {texts : List JsString} {records : List Record}
  (lines : List.Forall₂ (RecordLine reader) texts records)
  {fresh store : Store} (accepts : Accepts reader fresh records store)

include lines accepts

/-- Reading a log whose lines are complete up to some octets. -/
private theorem loadFile_lines (octets : List Octet) :
    loadFile reader fresh (some (lineOctets texts ++ octets)) =
      loadLines reader
        ((texts.flatMap (fun text => text ++ [newline]) ++ decodeUtf8 octets).getLast? ==
          some newline)
        (1 + texts.length) store ((decodeUtf8 octets).splitOn newline) := by
  have lineTexts := RecordLine.lineTexts lines
  rw [loadFile]
  simp only [loadText, decodeUtf8_lineOctets lineTexts, splitOn_lines lineTexts]
  exact loadLines_records lines accepts _ 1 _

/-- A log of complete lines is read as its records. -/
theorem loadFile_complete :
    loadFile reader fresh (some (lineOctets texts)) = .ok store := by
  have read := loadFile_lines lines accepts []
  rw [List.append_nil] at read
  rw [read]
  rfl

/-- Octets that are read as one line that is not JSON are left out. -/
theorem loadFile_torn {octets : List Octet} (noNewline : newline ∉ decodeUtf8 octets)
    (torn : parseJson (trim (decodeUtf8 octets)) = none) :
    loadFile reader fresh (some (lineOctets texts ++ octets)) = .ok store := by
  rw [loadFile_lines lines accepts, List.splitOn_eq_singleton noNewline]
  cases shape : decodeUtf8 octets with
  | nil => rfl
  | cons code rest =>
      have incomplete : ((texts.flatMap (fun text => text ++ [newline]) ++ code :: rest).getLast? ==
          some newline) = false := by
        rw [List.getLast?_append_of_ne_nil _ (List.cons_ne_nil code rest), beq_eq_false_iff_ne]
        intro last
        exact noNewline (shape ▸ List.mem_of_getLast? last)
      rw [← shape] at incomplete ⊢
      simp only [loadLines, incomplete, loadLine, torn]
      by_cases blank : trim (decodeUtf8 octets) = []
      · rw [if_pos blank]
        rfl
      · rw [if_neg blank]
        rfl

/-- A record without its newline is pushed. -/
theorem loadFile_unfinished {text : JsString} {record : Record} {next : Store}
    (line : RecordLine reader text record) (accepted : reader.accept store record = .ok next) :
    loadFile reader fresh (some (lineOctets texts ++ encodeUtf8 text)) = .ok next := by
  rw [loadFile_lines lines accepts, line.line.decode, List.splitOn_eq_singleton line.line.no_newline,
    loadLines, loadLine_record line, accepted]
  rfl

/-- A line that is not JSON is an error when a newline follows it. -/
theorem loadFile_corrupted {octets : List Octet} (rest : List Octet)
    (noNewline : newline ∉ decodeUtf8 octets) (nonempty : trim (decodeUtf8 octets) ≠ [])
    (broken : parseJson (trim (decodeUtf8 octets)) = none) :
    loadFile reader fresh (some (lineOctets texts ++ (octets ++ octet 10 :: rest))) =
      .error (.corrupted (1 + texts.length)) := by
  have separator : Fin.ofNat 65536 (octet 10).val = newline := rfl
  rw [loadFile_lines lines accepts, decodeUtf8_ascii octets (by decide), separator,
    List.splitOn_append_cons_self, List.splitOn_eq_singleton noNewline, List.singleton_append]
  have more : ((decodeUtf8 rest).splitOn newline).isEmpty = false := by
    rw [List.isEmpty_eq_false_iff]
    exact List.splitOn_ne_nil _ _
  simp only [loadLines, loadLine, if_neg nonempty, broken, more]
  rfl

end Reader

/-! ## A cut line -/

/-- What is read of a line that was cut inside. -/
theorem decodeUtf8_cut {text : JsString} (line : LineText text) {count : Nat} (some : count ≠ 0)
    (short : count < (encodeUtf8 text).length) :
    Torn (decodeUtf8 ((encodeUtf8 text).take count)) ∧
      newline ∉ decodeUtf8 ((encodeUtf8 text).take count) ∧
      parseJson (trim (decodeUtf8 ((encodeUtf8 text).take count))) = none ∧
      ∃ rest, decodeUtf8 ((encodeUtf8 text).take count) = unit '{' :: rest := by
  obtain ⟨before, code, after, split, read⟩ :=
    decodeUtf8_take_encodeUtf8 text line.printed.wellFormed short
  have prefixTorn : ∀ shorter longer : JsString, before = shorter ++ longer → shorter ≠ [] →
      Torn shorter := by
    intro shorter longer shape nonempty
    refine @ObjectText.torn_prefix _ _ (longer ++ code :: after) line.object ?_ nonempty (by simp)
    rw [split, shape, List.append_assoc]
  have noNewline : newline ∉ before := fun member =>
    line.no_newline (split ▸ List.mem_append_left _ member)
  -- the brace that opens the record is one octet, and it was written
  obtain ⟨tail, opened⟩ : ∃ tail, decodeUtf8 ((encodeUtf8 text).take count) = unit '{' :: tail := by
    obtain ⟨body, shape⟩ : ∃ body, text = unit '{' :: body := by
      obtain ⟨letter, rest, shape, -⟩ := line.record.shape
      exact ⟨_, shape⟩
    obtain ⟨less, rfl⟩ : ∃ less, count = less + 1 := ⟨count - 1, by omega⟩
    have octets : encodeUtf8 text = octet 123 :: encodeUtf8 body := by
      rw [shape, ← List.singleton_append, encodeUtf8_append (by decide)]
      rfl
    refine ⟨decodeUtf8 ((encodeUtf8 body).take less), ?_⟩
    have ascii := @decodeUtf8_ascii [] (octet 123) (by decide) ((encodeUtf8 body).take less)
    rw [octets, List.take_succ_cons]
    exact ascii
  have nonempty : before ≠ [] := by
    rintro rfl
    rw [opened] at read
    rcases read with empty | replaced
    · cases empty
    · exact absurd (List.cons.inj replaced).1 (by decide)
  have beforeTorn := prefixTorn before [] (List.append_nil _).symm nonempty
  refine ⟨?_, ?_, ?_, tail, opened⟩
  · rcases read with whole | replaced
    · rw [whole]
      exact beforeTorn
    · rw [replaced]
      exact beforeTorn.snoc (by decide) (by decide)
  · rcases read with whole | replaced
    · rw [whole]
      exact noNewline
    · rw [replaced, List.mem_append, not_or]
      exact ⟨noNewline, by decide⟩
  · rcases read with whole | replaced
    · rw [whole] at opened ⊢
      obtain ⟨kept, spaces, shape, trimmed, -⟩ := @trim_eq (unit '{') tail (by decide)
      rw [opened, trimmed]
      exact (prefixTorn _ _ (opened.trans shape) (by simp)).parseJson
    · have solid : trim (before ++ [replacement]) = before ++ [replacement] := by
        refine @trim_eq_self _ (unit '{') replacement ?_ ?_ (by decide) (by decide)
        · rw [← replaced, opened]
          rfl
        · exact List.getLast?_concat ..
      rw [replaced, solid]
      exact (beforeTorn.snoc (by decide) (by decide)).parseJson

/-- A record appended to a line without a newline spoils the line. -/
theorem decodeUtf8_merged {text record : JsString} (line : LineText text)
    (appended : LineText record) {count : Nat} (some : count ≠ 0)
    (inside : count ≤ (encodeUtf8 text).length) :
    newline ∉ decodeUtf8 ((encodeUtf8 text).take count ++ encodeUtf8 record) ∧
      trim (decodeUtf8 ((encodeUtf8 text).take count ++ encodeUtf8 record)) ≠ [] ∧
      parseJson (trim (decodeUtf8 ((encodeUtf8 text).take count ++ encodeUtf8 record))) = none := by
  have recordDecoded := appended.decode
  -- the record starts with an ASCII octet, where the file is divided
  have joined : decodeUtf8 ((encodeUtf8 text).take count ++ encodeUtf8 record) =
      decodeUtf8 ((encodeUtf8 text).take count) ++ record := by
    obtain ⟨letter, rest, shape, -⟩ := appended.record.shape
    have octets : encodeUtf8 record =
        octet 123 :: encodeUtf8 (unit '"' :: letter :: rest) := by
      rw [shape, ← List.singleton_append, encodeUtf8_append (by decide)]
      rfl
    have alone := @decodeUtf8_ascii [] (octet 123) (by decide)
      (encodeUtf8 (unit '"' :: letter :: rest))
    have divided := @decodeUtf8_ascii ((encodeUtf8 text).take count) (octet 123) (by decide)
      (encodeUtf8 (unit '"' :: letter :: rest))
    rw [octets] at recordDecoded ⊢
    rw [divided, ← recordDecoded]
    exact congrArg (decodeUtf8 ((encodeUtf8 text).take count) ++ ·) alone.symm
  have core : ∀ read : JsString, decodeUtf8 ((encodeUtf8 text).take count) = read →
      newline ∉ read → (∃ rest, read = unit '{' :: rest) → parseJson (read ++ record) = none →
      newline ∉ read ++ record ∧ trim (read ++ record) ≠ [] ∧
        parseJson (trim (read ++ record)) = none := by
    rintro read - noNewline ⟨rest, rfl⟩ broken
    have solid : trim (unit '{' :: rest ++ record) = unit '{' :: rest ++ record := by
      refine @trim_eq_self _ (unit '{') (unit '}') rfl ?_ (by decide) (by decide)
      rw [List.getLast?_append_of_ne_nil _ appended.ne_nil]
      exact appended.object.closes
    rw [solid]
    refine ⟨?_, by simp, broken⟩
    rw [List.mem_append, not_or]
    exact ⟨noNewline, appended.no_newline⟩
  rw [joined]
  by_cases whole : count = (encodeUtf8 text).length
  · have read : decodeUtf8 ((encodeUtf8 text).take count) = text := by
      rw [whole, List.take_length, line.decode]
    obtain ⟨letter, rest, shape, -⟩ := line.record.shape
    rw [read]
    exact core text read line.no_newline ⟨_, shape⟩ (line.object.append_record appended.record)
  · obtain ⟨torn, noNewline, -, opened⟩ := decodeUtf8_cut line some (by omega)
    exact core _ rfl noNewline opened (torn.append_record appended.record)

end SpecAsCode.Runtime
