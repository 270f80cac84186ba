import Mathlib

namespace Pspssh.Data

/-! Text laid out in rows of a fixed width. -/

/-- A line cut into rows of `width` characters. The empty line is one empty
row, and a line that fills its last row is not followed by an empty one. -/
def pieces (width : Nat) (line : List α) : List (List α) :=
  if width = 0 ∨ line.length ≤ width then [line]
  else line.take width :: pieces width (line.drop width)
termination_by line.length
decreasing_by simp only [List.length_drop]; omega

structure Page (α : Type _) where
  above : List (List α)
  current : List α

namespace Page

def rows (page : Page α) : List (List α) :=
  page.above ++ [page.current]

/-- The next character goes into the current row, or into a new one if that
is full. -/
def put (width : Nat) (page : Page α) (ch : α) : Page α :=
  if page.current.length < width then
    { page with current := page.current ++ [ch] }
  else { above := page.above ++ [page.current], current := [ch] }

def newline (page : Page α) : Page α where
  above := page.above ++ [page.current]
  current := []

@[simp] theorem rows_newline (page : Page α) :
    page.newline.rows = page.rows ++ [[]] := rfl

@[simp] theorem length_rows (page : Page α) :
    page.rows.length = page.above.length + 1 := by
  simp [rows]

end Page

theorem pieces_of_le {width : Nat} {line : List α}
    (short : line.length ≤ width) : pieces width line = [line] := by
  rw [pieces, if_pos (Or.inr short)]

theorem pieces_of_gt {width : Nat} {line : List α} (positive : 0 < width)
    (long : width < line.length) :
    pieces width line = line.take width :: pieces width (line.drop width) := by
  rw [pieces, if_neg (by omega)]

theorem length_le_of_mem_pieces {width : Nat} (positive : 0 < width)
    {line piece : List α} (member : piece ∈ pieces width line) :
    piece.length ≤ width := by
  induction line using pieces.induct width with
  | case1 line base =>
      have short : line.length ≤ width := by omega
      rw [pieces_of_le short, List.mem_singleton] at member
      rw [member]
      exact short
  | case2 line base ih =>
      rw [pieces_of_gt positive (by omega), List.mem_cons] at member
      rcases member with rfl | rest
      · exact List.length_take_le width line
      · exact ih rest

namespace Page

def write (width : Nat) (page : Page α) (line : List α) : Page α :=
  line.foldl (put width) page

theorem write_of_fits {width : Nat} (above : List (List α))
    (current line : List α) (fits : current.length + line.length ≤ width) :
    write width ⟨above, current⟩ line = ⟨above, current ++ line⟩ := by
  induction line generalizing current with
  | nil => simp [write]
  | cons ch rest ih =>
      rw [List.length_cons] at fits
      have room : current.length < width := by omega
      have step : put width ⟨above, current⟩ ch =
          ⟨above, current ++ [ch]⟩ := if_pos room
      change write width (put width ⟨above, current⟩ ch) rest = _
      rw [step, ih (current ++ [ch]) (by
        simp only [List.length_append, List.length_singleton]
        omega)]
      simp

theorem write_of_full {width : Nat} (positive : 0 < width)
    (above : List (List α)) {current line : List α}
    (full : current.length = width) (more : line ≠ []) :
    write width ⟨above, current⟩ line =
      write width (newline ⟨above, current⟩) line := by
  cases line with
  | nil => exact absurd rfl more
  | cons ch rest =>
      have wrapped : put width ⟨above, current⟩ ch =
          ⟨above ++ [current], [ch]⟩ := if_neg (by
        dsimp only
        omega)
      have fresh : put width (newline ⟨above, current⟩) ch =
          ⟨above ++ [current], [ch]⟩ := if_pos positive
      change write width (put width ⟨above, current⟩ ch) rest =
        write width (put width (newline ⟨above, current⟩) ch) rest
      rw [wrapped, fresh]

theorem rows_write {width : Nat} (positive : 0 < width)
    (above : List (List α)) (line : List α) :
    (write width ⟨above, []⟩ line).rows = above ++ pieces width line := by
  induction line using pieces.induct width generalizing above with
  | case1 line base =>
      have short : line.length ≤ width := by omega
      rw [pieces_of_le short, write_of_fits above [] line (by simpa using short)]
      rfl
  | case2 line base ih =>
      have long : width < line.length := by omega
      have taken : (line.take width).length = width := by
        rw [List.length_take]
        omega
      have more : line.drop width ≠ [] := by
        intro none
        have := congrArg List.length none
        rw [List.length_drop, List.length_nil] at this
        omega
      have first : write width ⟨above, []⟩ (line.take width) =
          ⟨above, line.take width⟩ :=
        write_of_fits above [] _ (by rw [taken]; simp)
      rw [pieces_of_gt positive long]
      calc
        (write width ⟨above, []⟩ line).rows =
            (write width (write width ⟨above, []⟩ (line.take width))
              (line.drop width)).rows := by
          rw [write, write, write, ← List.foldl_append, List.take_append_drop]
        _ = (write width ⟨above ++ [line.take width], []⟩
              (line.drop width)).rows := by
          rw [first, write_of_full positive above taken more]
          rfl
        _ = above ++ line.take width :: pieces width (line.drop width) := by
          rw [ih, List.append_assoc]
          rfl

def writeLines (width : Nat) : Page α → List (List α) → Page α
  | page, [] => page
  | page, [line] => write width page line
  | page, line :: next :: rest =>
      writeLines width (write width page line).newline (next :: rest)

theorem rows_writeLines {width : Nat} (positive : 0 < width)
    (above : List (List α)) {lines : List (List α)} (more : lines ≠ []) :
    (writeLines width ⟨above, []⟩ lines).rows =
      above ++ lines.flatMap (pieces width) := by
  induction lines generalizing above with
  | nil => exact absurd rfl more
  | cons line rest ih =>
      cases rest with
      | nil =>
          rw [writeLines, rows_write positive]
          simp
      | cons next rest =>
          rw [writeLines]
          change (writeLines width ⟨(write width ⟨above, []⟩ line).rows, []⟩
            (next :: rest)).rows = _
          rw [ih _ (List.cons_ne_nil _ _), rows_write positive,
            List.append_assoc]
          rfl

/-! ## Characters on a page -/

def charAt (rows : List (List α)) (row col : Nat) : Option α :=
  (rows[row]?.getD [])[col]?

theorem charAt_of_le {rows : List (List α)} {row : Nat}
    (beyond : rows.length ≤ row) (col : Nat) : charAt rows row col = none := by
  rw [charAt, List.getElem?_eq_none beyond]
  rfl

theorem charAt_empty (row col : Nat) :
    charAt ([[]] : List (List α)) row col = none := by
  cases row <;> rfl

theorem charAt_newline (page : Page α) (row col : Nat) :
    charAt page.newline.rows row col = charAt page.rows row col := by
  unfold charAt
  rw [rows_newline, List.getElem?_append]
  split
  · rfl
  · rename_i beyond
    rw [List.getElem?_eq_none (by omega : page.rows.length ≤ row)]
    exact charAt_empty (row - page.rows.length) col

theorem charAt_append (above : List (List α)) (current : List α) (ch : α)
    (row col : Nat) :
    charAt (above ++ [current ++ [ch]]) row col =
      if row = above.length ∧ col = current.length then some ch
      else charAt (above ++ [current]) row col := by
  unfold charAt
  grind

end Page

end Pspssh.Data
