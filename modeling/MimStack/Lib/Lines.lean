import Mathlib.Logic.Basic

/-!
Text read line by line, as a buffered reader does: the newline ends a line, a
carriage return before it goes with it, and a last line may have no newline. The
text is characters or bytes.
-/
namespace TextLines

variable {α : Type} [DecidableEq α] (newline ret : α)

def stripReturn (line : List α) : List α :=
  if line.getLast? = some ret then line.dropLast else line

def linesFrom (current : List α) : List α → List (List α)
  | [] => if current.isEmpty then [] else [current]
  | c :: rest =>
    if c = newline then stripReturn ret current :: linesFrom [] rest
    else linesFrom (current ++ [c]) rest

def lines (text : List α) : List (List α) := linesFrom newline ret [] text

structure Plain (line : List α) : Prop where
  unbroken : newline ∉ line
  finish : line.getLast? ≠ some ret

variable {newline ret}

theorem linesFrom_line (current line rest : List α) (unbroken : newline ∉ line) :
    linesFrom newline ret current (line ++ newline :: rest) =
      stripReturn ret (current ++ line) :: linesFrom newline ret [] rest := by
  induction line generalizing current with
  | nil => simp [linesFrom]
  | cons c line ih =>
    obtain ⟨other, later⟩ := not_or.mp (List.mem_cons.not.mp unbroken)
    have step : linesFrom newline ret current (c :: line ++ newline :: rest) =
        linesFrom newline ret (current ++ [c]) (line ++ newline :: rest) := by
      rw [List.cons_append, linesFrom, if_neg (Ne.symm other)]
    rw [step, ih (current ++ [c]) later, List.append_assoc, List.singleton_append]

variable (newline) in
/-- Lines one after another, each ended by a newline. -/
def written (ls : List (List α)) : List α := ls.flatMap (· ++ [newline])

omit [DecidableEq α] in
theorem written_append (before after : List (List α)) :
    written newline (before ++ after) = written newline before ++ written newline after :=
  List.flatMap_append

theorem linesFrom_begun {c : α} (current rest : List α) (kept : c ≠ ret) :
    ∃ line later, linesFrom newline ret (c :: current) rest = (c :: line) :: later := by
  have first : ∀ line : List α, ∃ others, stripReturn ret (c :: line) = c :: others := by
    intro line
    unfold stripReturn
    split
    · rename_i last
      cases line with
      | nil => exact absurd (Option.some.inj last) kept
      | cons d line => exact ⟨(d :: line).dropLast, rfl⟩
    · exact ⟨line, rfl⟩
  induction rest generalizing current with
  | nil => exact ⟨current, [], rfl⟩
  | cons d rest ih =>
    rw [linesFrom]
    split
    · obtain ⟨others, stripped⟩ := first current
      exact ⟨others, linesFrom newline ret [] rest, by rw [stripped]⟩
    · exact ih (current ++ [d])

theorem lines_begun {c : α} (rest : List α) (other : c ≠ newline) (kept : c ≠ ret) :
    ∃ line later, lines newline ret (c :: rest) = (c :: line) :: later := by
  rw [lines, linesFrom, if_neg other]
  exact linesFrom_begun [] rest kept

theorem lines_written_append (ls : List (List α)) (plain : ∀ line ∈ ls, Plain newline ret line)
    (rest : List α) : lines newline ret (written newline ls ++ rest) =
      ls ++ lines newline ret rest := by
  induction ls with
  | nil => rfl
  | cons line ls ih =>
    have here := plain line List.mem_cons_self
    have later := ih fun other mem => plain other (List.mem_cons_of_mem _ mem)
    have first : written newline (line :: ls) ++ rest =
        line ++ newline :: (written newline ls ++ rest) := by
      simp [written, List.flatMap_cons]
    have kept : stripReturn ret line = line := if_neg here.finish
    rw [lines, first, linesFrom_line [] line _ here.unbroken, List.nil_append, kept]
    exact congrArg (line :: ·) later

theorem lines_written (ls : List (List α)) (plain : ∀ line ∈ ls, Plain newline ret line) :
    lines newline ret (written newline ls) = ls := by
  have whole := lines_written_append ls plain []
  rw [List.append_nil] at whole
  exact whole.trans (List.append_nil ls)

end TextLines
