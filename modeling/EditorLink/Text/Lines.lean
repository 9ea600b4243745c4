/-! Counting the lines of a text. -/
namespace EditorLink.Text

/-- A line ends at a newline; text after the last newline is a line of its own, if there is any. -/
def lineCountFrom (inLine : Bool) : List Char → Nat
  | [] => if inLine then 1 else 0
  | c :: rest => if c = '\n' then 1 + lineCountFrom false rest else lineCountFrom true rest

def lineCount (s : String) : Nat := lineCountFrom false s.toList

/-- What stands between the newlines. A newline at the end starts no other line. -/
def lines (s : List Char) : List (List Char) :=
  let parts := s.splitOn '\n'
  if parts.getLast? = some [] then parts.dropLast else parts

theorem lineCountFrom_eq (inLine : Bool) (s : List Char) :
    lineCountFrom inLine s = if (s.splitOn '\n').getLast? = some [] ∧ (inLine = false ∨ 1 < (s.splitOn '\n').length)
      then (s.splitOn '\n').length - 1 else (s.splitOn '\n').length := by
  induction s generalizing inLine with
  | nil => cases inLine <;> rfl
  | cons c rest ih =>
    obtain ⟨first,others,parts⟩ := List.exists_cons_of_ne_nil (List.splitOn_ne_nil '\n' rest)
    rw [lineCountFrom,ih,ih,List.splitOn_cons_eq_if_modifyHead,parts]
    by_cases newline : c = '\n'
    · simp only [newline,beq_self_eq_true,if_true,List.getLast?_cons_cons,true_or,and_true,List.length_cons]
      split <;> simp_all <;> omega
    · cases others <;> simp [newline]

theorem lineCount_eq (s : String) : lineCount s = (lines s.toList).length := by
  rw [lineCount,lineCountFrom_eq,lines]
  split <;> simp_all

end EditorLink.Text
