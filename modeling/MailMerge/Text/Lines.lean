import MailMerge.Text.CodePoint

/-!
# Lines of a value

A line ends at a carriage return with a line feed, at a line feed or at a carriage return. Joining
uses line feeds, and `splitLines_joinLines` says that splitting gives back the lines that were
joined, empty ones included.
-/

namespace MailMerge.Text

open MailMerge.Symbol (ofChar char?)

variable {α : Type} [Symbol α]

def isLineEnd (a : α) : Bool := char? a = some '\n' || char? a = some '\r'

theorem isLineEnd_char {c : Char} : isLineEnd c = true ↔ c = '\n' ∨ c = '\r' := by
  simp [isLineEnd]

/-- The lines of a text, at least one. A carriage return in front of a line feed is passed over. -/
def splitLines : List α → List (List α)
  | [] => [[]]
  | a :: rest =>
    if char? a = some '\r' ∧ rest.head?.bind char? = some '\n' then splitLines rest
    else if isLineEnd a then [] :: splitLines rest
    else match splitLines rest with
      | [] => [[a]]
      | line :: lines => (a :: line) :: lines

/-- The lines with a line feed between each two. -/
def joinLines (lines : List (List α)) : List α := List.intercalate [ofChar '\n'] lines

theorem splitLines_ne_nil (cs : List α) : splitLines cs ≠ [] := by
  fun_induction splitLines cs <;> simp_all

theorem splitLines_cons {a : α} (ha : isLineEnd a = false) (rest : List α) :
    splitLines (a :: rest) = (a :: (splitLines rest).headD []) :: (splitLines rest).tail := by
  have hr : char? a ≠ some '\r' := fun h => by simp [isLineEnd, h] at ha
  rw [splitLines, if_neg fun h => hr h.1, if_neg (by simp [ha])]
  split
  · next h => exact absurd h (splitLines_ne_nil rest)
  · next line lines h => simp [h]

theorem splitLines_lineFeed (rest : List α) :
    splitLines (ofChar '\n' :: rest) = [] :: splitLines rest := by
  simp [splitLines, isLineEnd]

theorem splitLines_append_lineFeed {cs : List α} (h : ∀ c ∈ cs, isLineEnd c = false)
    (rest : List α) : splitLines (cs ++ ofChar '\n' :: rest) = cs :: splitLines rest := by
  induction cs with
  | nil => exact splitLines_lineFeed rest
  | cons c cs ih =>
    have hcs := ih fun d hd => h d (List.mem_cons_of_mem _ hd)
    rw [List.cons_append, splitLines_cons (h c List.mem_cons_self), hcs]
    rfl

theorem splitLines_of_no_lineEnd {cs : List α} (h : ∀ c ∈ cs, isLineEnd c = false) :
    splitLines cs = [cs] := by
  induction cs with
  | nil => rfl
  | cons c rest ih =>
    rw [splitLines_cons (h c List.mem_cons_self), ih fun d hd => h d (List.mem_cons_of_mem _ hd)]
    rfl

theorem splitLines_joinLines {lines : List (List α)} (hne : lines ≠ [])
    (h : ∀ line ∈ lines, ∀ c ∈ line, isLineEnd c = false) :
    splitLines (joinLines lines) = lines := by
  induction lines with
  | nil => exact absurd rfl hne
  | cons line lines ih =>
    have hline := h line List.mem_cons_self
    cases lines with
    | nil => simpa [joinLines, List.intercalate] using splitLines_of_no_lineEnd hline
    | cons next lines =>
      have hjoin : joinLines (line :: next :: lines) =
          line ++ ofChar '\n' :: joinLines (next :: lines) := by
        simp [joinLines, List.intercalate]
      rw [hjoin, splitLines_append_lineFeed hline,
        ih (by simp) fun l hl => h l (List.mem_cons_of_mem _ hl)]

theorem char?_toChar {c : Char} (hc : c ≠ '\uffff') (p : CodePoint) :
    char? p.toChar = some c ↔ char? p = some c := by
  cases p with
  | char d => rfl
  | surrogate n => simp [CodePoint.toChar, char?, Ne.symm hc]

theorem isLineEnd_toChar (p : CodePoint) : isLineEnd p.toChar = isLineEnd p := by
  simp only [isLineEnd, char?_toChar (c := '\n') (by decide), char?_toChar (c := '\r') (by decide)]

/-- A text and the characters that a document is given for it have the same lines. -/
theorem splitLines_chars (ps : Points) :
    splitLines ps.chars = (splitLines ps).map Points.chars := by
  induction ps with
  | nil => rfl
  | cons p ps ih =>
    have hnext : (Points.chars ps).head?.bind char? = some '\n' ↔
        ps.head?.bind char? = some '\n' := by
      cases ps with
      | nil => rfl
      | cons q ps => exact char?_toChar (by decide) q
    rw [Points.chars_cons, splitLines, splitLines, ih]
    simp only [isLineEnd_toChar, char?_toChar (c := '\r') (by decide), hnext]
    by_cases hpair : char? p = some '\r' ∧ ps.head?.bind char? = some '\n'
    · rw [if_pos hpair, if_pos hpair]
    rw [if_neg hpair, if_neg hpair]
    by_cases hend : isLineEnd p = true
    · rw [if_pos hend, if_pos hend]
      rfl
    rw [if_neg hend, if_neg hend]
    cases splitLines ps <;> rfl

end MailMerge.Text
