import SpecAsCode.Text.Utf8

/-!
# Decoding a stream

`TextDecoder` in stream mode: an unfinished sequence at the end of a chunk waits for the next
one, and a byte order mark at the start of the stream is dropped.
-/

namespace SpecAsCode.Text

open SpecAsCode.Js

/-- The byte order mark. -/
def byteOrderMark : CodeUnit :=
  0xFEFF

/-- The code units some octets complete, and the decoder after them. -/
def decodeRun : Decoder → List Octet → JsString × Decoder
  | decoder, [] => ([], decoder)
  | decoder, code :: rest =>
      ((decodeStep decoder code).1 ++ (decodeRun (decodeStep decoder code).2 rest).1,
        (decodeRun (decodeStep decoder code).2 rest).2)

/-- A `TextDecoder`: the sequence it is in, and whether the start of the stream is over. -/
structure TextDecoder where
  decoder : Decoder
  started : Bool

/-- `new TextDecoder()`. -/
def TextDecoder.fresh : TextDecoder :=
  ⟨.start, false⟩

/-- A text without a byte order mark at its start. -/
def stripMark : JsString → JsString
  | [] => []
  | first :: rest => if first = byteOrderMark then rest else first :: rest

/-- `decoder.decode(chunk, { stream: true })`. -/
def TextDecoder.decode (state : TextDecoder) (chunk : List Octet) : JsString × TextDecoder :=
  let run := decodeRun state.decoder chunk
  if state.started then
    (run.1, ⟨run.2, true⟩)
  else
    (stripMark run.1, ⟨run.2, !run.1.isEmpty⟩)

/-- What a decoder makes of chunk after chunk. -/
def TextDecoder.decodeAll : TextDecoder → List (List Octet) → List JsString
  | _, [] => []
  | state, chunk :: chunks => (state.decode chunk).1 :: decodeAll (state.decode chunk).2 chunks

/-- `response.json()` reads the whole body, without a byte order mark. -/
def decodeBody (octets : List Octet) : JsString :=
  stripMark (decodeUtf8 octets)

theorem decodeRun_append (decoder : Decoder) (first second : List Octet) :
    decodeRun decoder (first ++ second) =
      ((decodeRun decoder first).1 ++ (decodeRun (decodeRun decoder first).2 second).1,
        (decodeRun (decodeRun decoder first).2 second).2) := by
  induction first generalizing decoder with
  | nil => rfl
  | cons code rest inductionHypothesis =>
      simp only [List.cons_append, decodeRun, inductionHypothesis, List.append_assoc]

theorem decodeFrom_eq (decoder : Decoder) (octets : List Octet) :
    decodeFrom decoder octets =
      (decodeRun decoder octets).1 ++ (decodeRun decoder octets).2.flush := by
  induction octets generalizing decoder with
  | nil => rfl
  | cons code rest inductionHypothesis =>
      simp only [decodeFrom, decodeRun, inductionHypothesis, List.append_assoc]

theorem bounded_decodeRun {decoder : Decoder} (bounded : decoder.Bounded) (octets : List Octet) :
    (decodeRun decoder octets).2.Bounded := by
  induction octets generalizing decoder with
  | nil => exact bounded
  | cons code rest inductionHypothesis =>
      exact inductionHypothesis (bounded_decodeStep decoder code)

/-- An ASCII octet at the end leaves no sequence unfinished. -/
theorem decodeRun_ascii {decoder : Decoder} (bounded : decoder.Bounded) (octets : List Octet)
    {code : Octet} (ascii : code.val < 0x80) :
    ∃ before, decodeRun decoder (octets ++ [code]) =
      (before ++ [Fin.ofNat 65536 code.val], .start) := by
  have step := decodeStep_ascii (decodeRun decoder octets).2 ascii (by
    rintro missing low high point pending
    have inside := bounded_decodeRun bounded octets
    rw [pending] at inside
    exact inside)
  refine ⟨(decodeRun decoder octets).1 ++ (decodeRun decoder octets).2.flush, ?_⟩
  rw [decodeRun_append, decodeRun, step, decodeRun]
  simp

theorem isSurrogate_ascii {code : CodeUnit} (ascii : code.val < 0x80) :
    isSurrogate code = false := by
  simp only [isSurrogate, isHighSurrogate, isLowSurrogate, Bool.or_eq_false_iff,
    Bool.and_eq_false_iff, decide_eq_false_iff_not]
  omega

theorem encodeUtf8_ascii {code : CodeUnit} (ascii : code.val < 0x80) :
    encodeUtf8 [code] = [octet code.val] := by
  rw [encodeUtf8, encodeUnit, isSurrogate_ascii ascii, if_neg (by decide), encodePoint,
    if_pos ascii]

/-- A written text that ends with an ASCII code unit is decoded without rest. -/
theorem decodeRun_encodeUtf8 {text : JsString} (wellFormed : isWellFormedText text = true)
    {code : CodeUnit} (ascii : code.val < 0x80) :
    decodeRun .start (encodeUtf8 (text ++ [code])) = (text ++ [code], .start) := by
  have small : (octet code.val).val < 0x80 := by
    rw [octet_val (by omega)]
    exact ascii
  have whole : isWellFormedText (text ++ [code]) = true :=
    isWellFormedText_append wellFormed (by simp [isWellFormedText, isSurrogate_ascii ascii])
  have octets : encodeUtf8 (text ++ [code]) = encodeUtf8 text ++ [octet code.val] := by
    rw [encodeUtf8_append wellFormed, encodeUtf8_ascii ascii]
  obtain ⟨before, run⟩ := @decodeRun_ascii .start trivial (encodeUtf8 text) _ small
  have read := decodeUtf8_encodeUtf8 (text ++ [code]) whole []
  rw [List.append_nil, decodeUtf8, decodeFrom_eq, octets, run] at read
  rw [octets, run]
  simpa [Decoder.flush, decodeUtf8, decodeFrom] using read

/-- The chunks of a stream are decoded as one. -/
theorem flatten_decodeAll_started (decoder : Decoder) (chunks : List (List Octet)) :
    (TextDecoder.decodeAll ⟨decoder, true⟩ chunks).flatten =
      (decodeRun decoder chunks.flatten).1 := by
  induction chunks generalizing decoder with
  | nil => rfl
  | cons chunk chunks inductionHypothesis =>
      rw [TextDecoder.decodeAll, List.flatten_cons, List.flatten_cons, decodeRun_append]
      simp only [TextDecoder.decode, if_true, inductionHypothesis]

theorem stripMark_append {first : JsString} (nonempty : first ≠ []) (second : JsString) :
    stripMark (first ++ second) = stripMark first ++ second := by
  cases first with
  | nil => exact absurd rfl nonempty
  | cons code rest =>
      simp only [List.cons_append, stripMark]
      split <;> rfl

theorem flatten_decodeAll_waiting (decoder : Decoder) (chunks : List (List Octet)) :
    (TextDecoder.decodeAll ⟨decoder, false⟩ chunks).flatten =
      stripMark (decodeRun decoder chunks.flatten).1 := by
  induction chunks generalizing decoder with
  | nil => rfl
  | cons chunk chunks inductionHypothesis =>
      rw [TextDecoder.decodeAll, List.flatten_cons, List.flatten_cons, decodeRun_append]
      simp only [TextDecoder.decode, Bool.false_eq_true, if_false]
      cases text : (decodeRun decoder chunk).1 with
      | nil => exact inductionHypothesis _
      | cons code rest =>
          rw [stripMark_append (List.cons_ne_nil _ _)]
          exact congrArg _ (flatten_decodeAll_started _ chunks)

/-- Stream mode decodes the concatenation of the chunks. -/
theorem flatten_decodeAll (chunks : List (List Octet)) :
    (TextDecoder.fresh.decodeAll chunks).flatten =
      stripMark (decodeRun .start chunks.flatten).1 :=
  flatten_decodeAll_waiting .start chunks

theorem stripMark_eq_self {text : JsString} (plain : text.head? ≠ some byteOrderMark) :
    stripMark text = text := by
  cases text with
  | nil => rfl
  | cons first rest =>
      rw [stripMark, if_neg]
      simpa using plain

end SpecAsCode.Text
