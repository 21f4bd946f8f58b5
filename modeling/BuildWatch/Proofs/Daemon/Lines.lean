import BuildWatch.Daemon.Server
import BuildWatch.Proofs.Text.Decoding

/-!
The lines of some input.  A line ends with a newline, before which one return may stand; the last
line may have no end.  There is one way only to cut input into such lines, and it is the one in
which requests are read.
-/

namespace BuildWatch

namespace InputLine

/-- Input is the sequence of some lines, which are given without their line ends. -/
inductive Splits : List UInt8 → List (List UInt8) → Prop where
  | nothing : Splits [] []
  | unended {content : List UInt8} : content ≠ [] → newlineByte ∉ content →
      Splits content [content]
  | newline {content rest : List UInt8} {lines : List (List UInt8)} :
      newlineByte ∉ content → content.getLast? ≠ some returnByte → Splits rest lines →
      Splits (content ++ newlineByte :: rest) (content :: lines)
  | returned {content rest : List UInt8} {lines : List (List UInt8)} :
      newlineByte ∉ content → Splits rest lines →
      Splits (content ++ returnByte :: newlineByte :: rest) (content :: lines)

/-! ### Cutting at newlines -/

theorem splitFrom_newline {content : List UInt8} (hContent : newlineByte ∉ content)
    (start rest : List UInt8) :
    splitFrom start (content ++ newlineByte :: rest) =
      { bytes := start.reverse ++ content, ended := true } :: split rest := by
  induction content generalizing start with
  | nil => rw [List.nil_append, splitFrom, if_pos rfl, List.append_nil, split]
  | cons byte others ih =>
      have hByte : byte ≠ newlineByte := fun hSame => hContent (hSame ▸ List.mem_cons_self)
      have hOthers : newlineByte ∉ others := fun hIn => hContent (List.mem_cons_of_mem _ hIn)
      rw [List.cons_append, splitFrom, if_neg hByte, ih hOthers]
      simp

theorem splitFrom_unended {content : List UInt8} (hContent : newlineByte ∉ content)
    {start : List UInt8} (hSome : start.reverse ++ content ≠ []) :
    splitFrom start content = [{ bytes := start.reverse ++ content, ended := false }] := by
  induction content generalizing start with
  | nil =>
      have hStart : start.isEmpty = false := by simpa using hSome
      rw [splitFrom, hStart, List.append_nil]
      rfl
  | cons byte others ih =>
      have hByte : byte ≠ newlineByte := fun hSame => hContent (hSame ▸ List.mem_cons_self)
      have hOthers : newlineByte ∉ others := fun hIn => hContent (List.mem_cons_of_mem _ hIn)
      rw [splitFrom, if_neg hByte, ih hOthers (by simp)]
      simp

theorem split_newline {content : List UInt8} (hContent : newlineByte ∉ content)
    (rest : List UInt8) :
    split (content ++ newlineByte :: rest) = { bytes := content, ended := true } :: split rest :=
  splitFrom_newline hContent [] rest

theorem split_unended {content : List UInt8} (hSome : content ≠ [])
    (hContent : newlineByte ∉ content) :
    split content = [{ bytes := content, ended := false }] :=
  @splitFrom_unended content hContent [] hSome

/-! ### Line ends -/

theorem content_unended (bytes : List UInt8) :
    ({ bytes := bytes, ended := false } : InputLine).content = bytes := by
  unfold content
  cases bytes.getLast? <;> rfl

theorem content_newline {bytes : List UInt8} (hLast : bytes.getLast? ≠ some returnByte) :
    ({ bytes := bytes, ended := true } : InputLine).content = bytes := by
  unfold content
  cases hBytes : bytes.getLast? with
  | none => rfl
  | some last =>
      have hOther : last ≠ returnByte := fun hSame => hLast (by rw [hBytes, hSame])
      simp only [if_neg hOther]

theorem content_returned (bytes : List UInt8) :
    ({ bytes := bytes ++ [returnByte], ended := true } : InputLine).content = bytes := by
  unfold content
  simp

/-! ### The lines of any input -/

theorem Splits.eq_split {input : List UInt8} {lines : List (List UInt8)}
    (hSplits : Splits input lines) : lines = (split input).map content := by
  induction hSplits with
  | nothing => rfl
  | unended hSome hContent =>
      rw [split_unended hSome hContent, List.map_singleton, content_unended]
  | newline hContent hLast _ ih =>
      rw [split_newline hContent, List.map_cons, content_newline hLast, ih]
  | @returned content rest lines hContent _ ih =>
      have hReturned : newlineByte ∉ content ++ [returnByte] := by
        rw [List.mem_append, not_or]
        exact ⟨hContent, by decide⟩
      have hSplit := split_newline hReturned rest
      rw [List.append_assoc, List.singleton_append] at hSplit
      rw [hSplit, List.map_cons, content_returned, ih]

theorem splits_split (input : List UInt8) : Splits input ((split input).map content) := by
  generalize hLength : input.length = length
  induction length using Nat.strongRecOn generalizing input with
  | ind length ih =>
      by_cases hNewline : newlineByte ∈ input
      · obtain ⟨line, rest, rfl, hLine⟩ := List.eq_append_cons_of_mem hNewline
        have hShorter : rest.length < length := by
          rw [← hLength, List.length_append, List.length_cons]
          omega
        have hRest := ih rest.length hShorter rest rfl
        rw [split_newline hLine, List.map_cons]
        -- A return before the newline belongs to the line end.
        by_cases hLast : line.getLast? = some returnByte
        · obtain ⟨before, rfl⟩ := List.getLast?_eq_some_iff.mp hLast
          rw [content_returned, List.append_assoc, List.singleton_append]
          exact .returned (fun hIn => hLine (List.mem_append_left _ hIn)) hRest
        · rw [content_newline hLast]
          exact .newline hLine hLast hRest
      · cases input with
        | nil => exact .nothing
        | cons byte rest =>
            have hSome : byte :: rest ≠ [] := List.cons_ne_nil byte rest
            rw [split_unended hSome hNewline, List.map_singleton, content_unended]
            exact .unended hSome hNewline

theorem splits_iff {input : List UInt8} {lines : List (List UInt8)} :
    Splits input lines ↔ lines = (split input).map content := by
  constructor
  · exact Splits.eq_split
  · rintro rfl
    exact splits_split input

end InputLine

end BuildWatch
