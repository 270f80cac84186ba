import Pspssh.Data.Text

namespace Pspssh.Data.InPlace

open Pspssh.Data

/-! C strings read and cut up where they lie. A buffer is all the memory there
is: an access behind its last byte has no result. -/

/-- The string that a library function reads at an address. -/
def stringAt (buffer : List UInt8) (place : Nat) : Option (List UInt8) :=
  if 0 ∈ buffer.drop place then some (cString (buffer.drop place)).text else none

def poke (buffer : List UInt8) (place : Nat) (value : UInt8) :
    Option (List UInt8) :=
  if place < buffer.length then some (buffer.set place value) else none

/-- `strchr`, with `some none` for `NULL`. -/
def strchr (buffer : List UInt8) (mark : UInt8) (place : Nat) :
    Option (Option Nat) :=
  if _ : place < buffer.length then
    if buffer[place] = mark then some (some place)
    else if buffer[place] = 0 then some none
    else strchr buffer mark (place + 1)
  else none
termination_by buffer.length - place

def lineEnd (buffer : List UInt8) (place : Nat) : Option Nat :=
  if _ : place < buffer.length then
    if buffer[place] ≠ 0 ∧ ¬ IsBreak buffer[place] then
      lineEnd buffer (place + 1)
    else some place
  else none
termination_by buffer.length - place

def clearBreaks (buffer : List UInt8) (place : Nat) :
    Option (List UInt8 × Nat) :=
  if _ : place < buffer.length then
    if IsBreak buffer[place] then clearBreaks (buffer.set place 0) (place + 1)
    else some (buffer, place)
  else none
termination_by buffer.length - place
decreasing_by
  rw [List.length_set]
  omega

/-- The loop over the lines of a text at `line`. -/
def scanLines {τ : Type}
    (takeLine : List UInt8 → Nat → τ → Option (List UInt8 × τ)) :
    Nat → List UInt8 → Nat → τ → Option (List UInt8 × τ)
  | 0, _, _, _ => none
  | fuel + 1, buffer, line, state => do
      if (← buffer[line]?) = 0 then some (buffer, state)
      else
        let stop ← lineEnd buffer line
        let (buffer, next) ← clearBreaks buffer stop
        let (buffer, state) ← takeLine buffer line state
        scanLines takeLine fuel buffer next state

/-- `split` at tabs from `line` on, with the fields found so far. -/
def splitLoop (most : Nat) (buffer : List UInt8) (line : Nat)
    (fields : List Nat) : Option (List UInt8 × List Nat) :=
  if _ : line < buffer.length then
    if buffer[line] ≠ 0 ∧ fields.length < most then
      if buffer[line] = 0x09 then
        splitLoop most (buffer.set line 0) (line + 1) (fields ++ [line + 1])
      else splitLoop most buffer (line + 1) fields
    else some (buffer, fields)
  else none
termination_by buffer.length - line
decreasing_by
  · rw [List.length_set]
    omega
  · omega

/-- The bytes that `copy_field` takes, with room for so many. -/
def copyBytes (buffer : List UInt8) (source room : Nat) : Option (List UInt8) :=
  match buffer[source]? with
  | none => none
  | some ch =>
      if ch = 0 then some []
      else
        match room with
        | 0 => some []
        | room + 1 => (copyBytes buffer (source + 1) room).map (ch :: ·)
termination_by room

/-- `copy_field` into a `char[size]`. -/
def copyFieldAt (size : Nat) [NeZero size] (buffer : List UInt8) (source : Nat) :
    Option (Field size) :=
  (copyBytes buffer source (size - 1)).map (copyField size)

/-! ## A text in the middle of the memory -/

section Text

variable (before : List UInt8) {text rest : List UInt8}

theorem place_lt {ch : UInt8} :
    before.length < (before ++ ch :: rest).length := by
  simp

theorem getElem_at {ch : UInt8}
    (inside : before.length < (before ++ ch :: rest).length) :
    (before ++ ch :: rest)[before.length] = ch := by
  simp

theorem getElem?_at {ch : UInt8} :
    (before ++ ch :: rest)[before.length]? = some ch := by
  simp

theorem set_at {ch value : UInt8} :
    (before ++ ch :: rest).set before.length value =
      before ++ value :: rest := by
  simp

theorem getElem?_string :
    (before ++ (text ++ 0 :: rest))[before.length]? = some (text.headD 0) := by
  cases text with
  | nil => exact getElem?_at before
  | cons ch text => exact getElem?_at before

theorem headD_eq_zero (noNul : 0 ∉ text) : text.headD 0 = 0 ↔ text = [] := by
  cases text with
  | nil => simp
  | cons ch text => simpa using (List.ne_of_not_mem_cons noNul).symm

/-- The first byte of a line tells whether to skip it. -/
theorem skips_iff (noNul : 0 ∉ text) (mark : UInt8) :
    (text.headD 0 = 0 ∨ text.headD 0 = mark) ↔
      (text = [] ∨ text.head? = some mark) := by
  rw [headD_eq_zero noNul]
  cases text with
  | nil => simp
  | cons ch text => simp

theorem step_append (ch : UInt8) (tail : List UInt8) :
    before ++ ch :: tail = (before ++ [ch]) ++ tail ∧
      before.length + 1 = (before ++ [ch]).length := by
  simp

theorem stringAt_eq (noNul : 0 ∉ text) :
    stringAt (before ++ (text ++ 0 :: rest)) before.length = some text := by
  simp only [stringAt, List.drop_left]
  rw [if_pos (by simp), cString_append noNul (by simp)]

theorem copyBytes_eq (noNul : 0 ∉ text) (room : Nat) :
    copyBytes (before ++ (text ++ 0 :: rest)) before.length room =
      some (text.take room) := by
  induction text generalizing before room with
  | nil =>
      rw [copyBytes, List.nil_append, getElem?_at]
      simp
  | cons ch text ih =>
      obtain ⟨notNul, later⟩ := List.ne_and_not_mem_of_not_mem_cons noNul
      rw [copyBytes, List.cons_append, getElem?_at]
      dsimp only
      rw [if_neg (Ne.symm notNul)]
      cases room with
      | zero => rfl
      | succ room =>
          obtain ⟨moved, place⟩ := step_append before ch (text ++ 0 :: rest)
          dsimp only
          rw [moved, place, ih (before ++ [ch]) later]
          rfl

theorem strchr_eq {mark : UInt8} (notNul : mark ≠ 0) (noNul : 0 ∉ text) :
    strchr (before ++ (text ++ 0 :: rest)) mark before.length =
      some ((cutAt mark text).map fun halves =>
        before.length + halves.1.length) := by
  induction text generalizing before with
  | nil =>
      rw [strchr, List.nil_append, dif_pos (place_lt before),
        getElem_at before, if_neg notNul.symm, if_pos rfl]
      rfl
  | cons ch text ih =>
      obtain ⟨goesOn, later⟩ := List.ne_and_not_mem_of_not_mem_cons noNul
      rw [strchr, List.cons_append, dif_pos (place_lt before),
        getElem_at before, cutAt]
      by_cases here : ch = mark
      · rw [if_pos here, if_pos here]
        rfl
      · obtain ⟨moved, place⟩ := step_append before ch (text ++ 0 :: rest)
        rw [if_neg here, if_neg here, if_neg goesOn.symm, moved, place,
          ih (before ++ [ch]) later]
        cases cutAt mark text with
        | none => rfl
        | some halves =>
            simp only [Option.map_some, List.length_append, List.length_cons,
              List.length_nil]
            congr 2
            omega

theorem lineEnd_eq {line after : List UInt8} (noNul : 0 ∉ line)
    (unbroken : ∀ ch ∈ line, ¬ IsBreak ch)
    (ended : ∀ ch ∈ after.head?, ch = 0 ∨ IsBreak ch) (some : after ≠ []) :
    lineEnd (before ++ (line ++ after)) before.length =
      .some (before.length + line.length) := by
  induction line generalizing before with
  | nil =>
      obtain ⟨ch, after, rfl⟩ := List.exists_cons_of_ne_nil some
      have stops := ended ch rfl
      rw [lineEnd, List.nil_append, dif_pos (place_lt before),
        getElem_at before, if_neg]
      · rfl
      · intro goes
        exact stops.elim goes.1 goes.2
  | cons ch line ih =>
      obtain ⟨notNul, later⟩ := List.ne_and_not_mem_of_not_mem_cons noNul
      obtain ⟨moved, place⟩ := step_append before ch (line ++ after)
      rw [lineEnd, List.cons_append, dif_pos (place_lt before),
        getElem_at before,
        if_pos ⟨Ne.symm notNul, unbroken ch List.mem_cons_self⟩, moved, place,
        ih (before ++ [ch]) later fun ch member =>
          unbroken ch (List.mem_cons_of_mem _ member)]
      simp only [List.length_append, List.length_cons, List.length_nil]
      congr 1
      omega

theorem clearBreaks_eq {breaks after : List UInt8}
    (each : ∀ ch ∈ breaks, IsBreak ch)
    (ended : ∀ ch ∈ after.head?, ¬ IsBreak ch) (some : after ≠ []) :
    clearBreaks (before ++ (breaks ++ after)) before.length =
      .some (before ++ (List.replicate breaks.length 0 ++ after),
        before.length + breaks.length) := by
  induction breaks generalizing before with
  | nil =>
      obtain ⟨ch, after, rfl⟩ := List.exists_cons_of_ne_nil some
      rw [clearBreaks, List.nil_append, dif_pos (place_lt before),
        getElem_at before, if_neg (ended ch rfl)]
      rfl
  | cons ch breaks ih =>
      obtain ⟨moved, place⟩ := step_append before 0 (breaks ++ after)
      rw [clearBreaks, List.cons_append, dif_pos (place_lt before),
        getElem_at before, if_pos (each ch List.mem_cons_self), set_at, moved,
        place, ih (before ++ [0]) fun ch member =>
          each ch (List.mem_cons_of_mem _ member)]
      simp only [List.length_append, List.length_cons, List.length_nil,
        List.replicate_succ, List.append_assoc, List.cons_append,
        List.nil_append]
      congr 2
      omega

end Text

/-! ## Fields -/

def PointsAt (buffer : List UInt8) (place : Nat) (text : List UInt8) : Prop :=
  0 ∉ text ∧ ∃ front more,
    buffer = front ++ (text ++ 0 :: more) ∧ place = front.length

theorem PointsAt.stringAt {buffer text : List UInt8} {place : Nat}
    (points : PointsAt buffer place text) : stringAt buffer place = some text := by
  obtain ⟨noNul, front, more, rfl, rfl⟩ := points
  exact stringAt_eq front noNul

theorem PointsAt.getElem? {buffer text : List UInt8} {place : Nat}
    (points : PointsAt buffer place text) :
    buffer[place]? = some (text.headD 0) := by
  obtain ⟨_, front, more, rfl, rfl⟩ := points
  exact getElem?_string front

theorem PointsAt.strchr {buffer text : List UInt8} {place : Nat}
    (points : PointsAt buffer place text) {mark : UInt8} (notNul : mark ≠ 0) :
    strchr buffer mark place =
      some ((cutAt mark text).map fun halves => place + halves.1.length) := by
  obtain ⟨noNul, front, more, rfl, rfl⟩ := points
  exact strchr_eq front notNul noNul

theorem PointsAt.copyField {buffer text : List UInt8} {place : Nat}
    (points : PointsAt buffer place text) (size : Nat) [NeZero size] :
    copyFieldAt size buffer place = some (Data.copyField size text) := by
  obtain ⟨noNul, front, more, rfl, rfl⟩ := points
  rw [copyFieldAt, copyBytes_eq front noNul, Option.map_some]
  have short : (text.take (size - 1)).length < size := by
    have positive := NeZero.pos size
    rw [List.length_take]
    omega
  have cut : 0 ∉ text.take (size - 1) := fun nul =>
    noNul (List.mem_of_mem_take nul)
  refine congrArg some (Field.ext ?_)
  rw [copyField_text cut short]
  exact congrArg (List.take (size - 1)) (cString_text noNul).symm

/-! A string cut in two at one of its bytes. -/

section Cut

variable {before front behind rest : List UInt8}

theorem poke_mark {mark : UInt8} :
    poke (before ++ (front ++ mark :: behind ++ 0 :: rest))
        (before.length + front.length) 0 =
      some (before ++ (front ++ 0 :: behind ++ 0 :: rest)) := by
  simp [poke]

theorem pointsAt_front (noNul : 0 ∉ front) :
    PointsAt (before ++ (front ++ 0 :: behind ++ 0 :: rest)) before.length
      front :=
  ⟨noNul, before, behind ++ 0 :: rest, by simp, rfl⟩

theorem pointsAt_behind (noNul : 0 ∉ behind) :
    PointsAt (before ++ (front ++ 0 :: behind ++ 0 :: rest))
      (before.length + front.length + 1) behind :=
  ⟨noNul, before ++ (front ++ [0]), rest, by simp, by simp [Nat.add_assoc]⟩

theorem behind_cut :
    before ++ (front ++ 0 :: behind ++ 0 :: rest) =
      before ++ (front ++ [0]) ++ (behind ++ 0 :: rest) := by
  simp

end Cut

/-- Where strings begin that follow one another. -/
def starts (place : Nat) : List (List UInt8) → List Nat
  | [] => []
  | text :: others => place :: starts (place + text.length + 1) others

theorem starts_modifyHead (ch : UInt8) (place : Nat) (parts : List (List UInt8)) :
    (starts place (parts.modifyHead (ch :: ·))).tail =
      (starts (place + 1) parts).tail := by
  cases parts with
  | nil => rfl
  | cons part parts =>
      simp only [List.modifyHead_cons, starts, List.tail_cons, List.length_cons]
      congr 1
      omega

theorem intercalate_modifyHead (ch : UInt8) {parts : List (List UInt8)}
    (nonempty : parts ≠ []) :
    [(0 : UInt8)].intercalate (parts.modifyHead (ch :: ·)) =
      ch :: [(0 : UInt8)].intercalate parts := by
  obtain ⟨part, others, rfl⟩ := List.exists_cons_of_ne_nil nonempty
  exact List.intercalate_cons_cons_left

theorem splitLoop_eq {most : Nat} {before line rest : List UInt8}
    {fields : List Nat} (noNul : 0 ∉ line) (few : fields.length ≤ most) :
    splitLoop most (before ++ (line ++ 0 :: rest)) before.length fields =
      some (before ++ ([0].intercalate (split (most - fields.length) line) ++
          0 :: rest),
        fields ++ (starts before.length
          (split (most - fields.length) line)).tail) := by
  induction line generalizing before fields with
  | nil =>
      rw [split_last List.not_mem_nil, splitLoop, List.nil_append,
        dif_pos (place_lt before), getElem_at before,
        if_neg fun goes => goes.1 rfl]
      simp [starts]
  | cons ch line ih =>
      obtain ⟨notNul, later⟩ := List.ne_and_not_mem_of_not_mem_cons noNul
      rw [splitLoop, List.cons_append, dif_pos (place_lt before),
        getElem_at before]
      rcases few.lt_or_eq with room | full
      · rw [if_pos ⟨notNul.symm, room⟩]
        by_cases tab : ch = 0x09
        · obtain ⟨moved, place⟩ := step_append before 0 (line ++ 0 :: rest)
          obtain ⟨left, left_eq⟩ : ∃ left, most - fields.length = left + 1 :=
            ⟨most - fields.length - 1, by omega⟩
          have counted : most - (fields ++ [before.length + 1]).length = left := by
            rw [List.length_append, List.length_singleton]
            omega
          have cut : split (left + 1) (0x09 :: line) = [] :: split left line :=
            split_append List.not_mem_nil left line
          obtain ⟨part, others, parts⟩ :=
            List.exists_cons_of_ne_nil (split_ne_nil left line)
          rw [if_pos tab, set_at, moved, place, ih later, ← place, counted,
            left_eq, tab, cut, parts]
          · simp [starts, List.intercalate_cons_cons]
          · rw [List.length_append, List.length_singleton]
            exact room
        · obtain ⟨moved, place⟩ := step_append before ch (line ++ 0 :: rest)
          rw [if_neg tab, moved, place, ih later few, split_cons tab, ← place,
            starts_modifyHead, intercalate_modifyHead ch (split_ne_nil _ _)]
          simp
      · rw [if_neg fun goes => absurd full goes.2.ne, full, Nat.sub_self]
        simp [split, starts]

theorem starts_pointsAt {before rest : List UInt8}
    {parts : List (List UInt8)} (noNul : ∀ part ∈ parts, 0 ∉ part) :
    List.Forall₂
      (PointsAt (before ++ ([0].intercalate parts ++ 0 :: rest)))
      (starts before.length parts) parts := by
  induction parts generalizing before with
  | nil => exact .nil
  | cons part parts ih =>
      have here : 0 ∉ part := noNul part List.mem_cons_self
      have others := fun other member =>
        noNul other (List.mem_cons_of_mem part member)
      cases parts with
      | nil =>
          rw [List.intercalate_singleton]
          exact .cons ⟨here, before, rest, rfl, rfl⟩ .nil
      | cons next parts =>
          have place : before.length + part.length + 1 =
              (before ++ part ++ [0]).length := by
            simp [Nat.add_assoc]
          have whole : before ++ ([0].intercalate (part :: next :: parts) ++
              0 :: rest) = (before ++ part ++ [0]) ++
                ([0].intercalate (next :: parts) ++ 0 :: rest) := by
            simp [List.intercalate_cons_cons]
          rw [starts, place]
          refine .cons ⟨here, before,
            [0].intercalate (next :: parts) ++ 0 :: rest, ?_, rfl⟩ ?_
          · simp [List.intercalate_cons_cons]
          · rw [whole]
            exact ih others

theorem length_intercalate_split (count : Nat) (line : List UInt8) :
    ([0].intercalate (split count line)).length = line.length := by
  induction count generalizing line with
  | zero => rw [split, List.intercalate_singleton]
  | succ count ih =>
      rw [split]
      cases cut : cutAt 0x09 line with
      | none => rw [List.intercalate_singleton]
      | some halves =>
          obtain ⟨whole, _⟩ := cutAt_eq_some_iff.mp cut
          rw [List.intercalate_cons_of_ne_nil (split_ne_nil _ _), whole]
          simp only [List.length_append, List.length_cons, List.length_nil, ih]
          omega

/-- A line cut up at its tabs, with a pointer to each of its fields. -/
theorem splitLoop_line {line : List UInt8} (noNul : 0 ∉ line) (count : Nat)
    (before rest : List UInt8) :
    ∃ fields,
      splitLoop (count + 1) (before ++ (line ++ 0 :: rest)) before.length
          [before.length] =
        some (before ++ ([0].intercalate (split count line) ++ 0 :: rest),
          fields) ∧
      List.Forall₂
        (PointsAt (before ++ ([0].intercalate (split count line) ++ 0 :: rest)))
        fields (split count line) := by
  refine ⟨starts before.length (split count line), ?_,
    starts_pointsAt fun part member nul =>
      noNul (mem_split member 0 nul)⟩
  obtain ⟨part, others, parts⟩ :=
    List.exists_cons_of_ne_nil (split_ne_nil count line)
  rw [splitLoop_eq noNul (Nat.succ_pos count), List.length_singleton,
    Nat.add_sub_cancel, parts]
  rfl

/-! ## All lines -/

section Lines

variable {τ : Type}
  {takeLine : List UInt8 → Nat → τ → Option (List UInt8 × τ)}

theorem scanLines_line {before line breaks more worn rest : List UInt8}
    {state after : τ} (noNul : 0 ∉ line) (unbroken : ∀ ch ∈ line, ¬ IsBreak ch)
    (broken : ∀ ch ∈ breaks, IsBreak ch)
    (next : ∀ ch ∈ more.head?, ¬ IsBreak ch) (last : breaks = [] → more = [])
    (nonempty : line ≠ [] ∨ breaks ≠ []) (kept : worn.length = line.length)
    (taken : ∀ tail, takeLine (before ++ (line ++ 0 :: tail)) before.length
      state = some (before ++ (worn ++ 0 :: tail), after)) (fuel : Nat) :
    scanLines takeLine (fuel + 1)
        (before ++ (line ++ (breaks ++ (more ++ 0 :: rest)))) before.length
        state =
      scanLines takeLine fuel
        (before ++ worn ++ List.replicate breaks.length 0 ++
          (more ++ 0 :: rest))
        (before ++ worn ++ List.replicate breaks.length 0).length after := by
  have begins : ∃ ch, ch ≠ 0 ∧
      (before ++ (line ++ (breaks ++ (more ++ 0 :: rest))))[before.length]? =
        some ch := by
    cases line with
    | cons ch line =>
        exact ⟨ch, (List.ne_of_not_mem_cons noNul).symm, getElem?_at before⟩
    | nil =>
        obtain ⟨mark, others, rfl⟩ :=
          List.exists_cons_of_ne_nil (nonempty.resolve_left (· rfl))
        refine ⟨mark, ?_, getElem?_at before⟩
        rintro rfl
        exact absurd (broken 0 List.mem_cons_self) (by decide)
  have ends : ∀ ch ∈ (breaks ++ (more ++ 0 :: rest)).head?,
      ch = 0 ∨ IsBreak ch := by
    cases breaks with
    | nil => simp [last rfl]
    | cons mark breaks => simpa using .inr (broken mark List.mem_cons_self)
  have resumes : ∀ ch ∈ (more ++ 0 :: rest).head?, ¬ IsBreak ch := by
    cases more with
    | nil => simpa using by decide
    | cons ch more => simpa using next
  -- the line is a string now, with or without a break behind it
  obtain ⟨tail, closed⟩ : ∃ tail,
      List.replicate breaks.length 0 ++ (more ++ 0 :: rest) = 0 :: tail := by
    cases breaks with
    | nil => exact ⟨rest, by simp [last rfl]⟩
    | cons mark breaks => exact ⟨_, rfl⟩
  obtain ⟨first, notNul, begins⟩ := begins
  have stop := lineEnd_eq before noNul unbroken ends (by simp)
  have cleared := clearBreaks_eq (before ++ line) broken resumes (by simp)
  rw [List.append_assoc, List.length_append, closed,
    List.append_assoc] at cleared
  have place : (before ++ worn ++ List.replicate breaks.length 0).length =
      before.length + line.length + breaks.length := by
    simp only [List.length_append, List.length_replicate, kept]
  rw [place, List.append_assoc (before ++ worn), closed,
    List.append_assoc before]
  simp only [scanLines, begins, Option.bind_eq_bind, Option.bind_some,
    if_neg notNul, stop, cleared, taken tail]

/-- Any treatment of single lines that stays within them goes over the lines
of the text, and no further. -/
theorem scanLines_eq {step : τ → List UInt8 → τ}
    (each : ∀ line state, 0 ∉ line → ∃ worn, worn.length = line.length ∧
      ∀ before rest, takeLine (before ++ (line ++ 0 :: rest)) before.length
          state = some (before ++ (worn ++ 0 :: rest), step state line))
    {text : List UInt8} (noNul : 0 ∉ text) (state : τ) :
    ∃ worn, worn.length = text.length ∧
      ∀ before rest fuel, text.length < fuel →
        scanLines takeLine fuel (before ++ (text ++ 0 :: rest)) before.length
            state =
          some (before ++ (worn ++ 0 :: rest),
            (lines text).foldl step state) := by
  induction size : text.length using Nat.strong_induction_on
    generalizing text state with
  | _ length ih =>
      subst size
      rcases eq_or_ne text [] with rfl | nonempty
      · refine ⟨[], rfl, fun before rest fuel enough => ?_⟩
        obtain ⟨fuel, rfl⟩ := Nat.exists_eq_succ_of_ne_zero enough.ne'
        simp [scanLines, lines]
      · obtain ⟨line, breaks, more, rfl, unbroken, broken, next, last, cut⟩ :=
          cut_line nonempty
        have some : line ≠ [] ∨ breaks ≠ [] := by
          by_contra none
          obtain ⟨rfl, rfl⟩ : line = [] ∧ breaks = [] := by simpa using none
          exact nonempty (last rfl)
        have shorter : more.length < (line ++ (breaks ++ more)).length := by
          have line_length := List.length_pos_iff (l := line)
          have breaks_length := List.length_pos_iff (l := breaks)
          rw [← line_length, ← breaks_length] at some
          rw [List.length_append, List.length_append]
          omega
        simp only [List.mem_append, not_or] at noNul
        obtain ⟨worn, kept, taken⟩ := each line state noNul.1
        obtain ⟨left, left_length, others⟩ :=
          ih more.length shorter noNul.2.2 (step state line) rfl
        refine ⟨worn ++ (List.replicate breaks.length 0 ++ left), ?_, ?_⟩
        · simp only [List.length_append, List.length_replicate, kept,
            left_length]
        · intro before rest fuel enough
          obtain ⟨fuel, rfl⟩ := Nat.exists_eq_succ_of_ne_zero
            (Nat.ne_zero_of_lt enough)
          rw [List.append_assoc, List.append_assoc,
            scanLines_line noNul.1 unbroken broken next last some kept
              (taken before), others _ rest fuel (by omega), cut,
            List.foldl_cons]
          simp only [List.append_assoc]

end Lines

end Pspssh.Data.InPlace
