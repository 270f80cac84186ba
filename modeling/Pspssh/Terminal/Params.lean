import Pspssh.Data.Decimal
import Pspssh.Terminal.Feed

namespace Pspssh.Terminal

open Pspssh.Data

/-! Where the parser puts the parameters of a control sequence. -/

def csiFields (fields : List (List UInt8)) : List UInt8 :=
  [0x1b, 0x5b] ++ [0x3b].intercalate fields

def fieldValue (field : List UInt8) : Nat :=
  min (decimalValue field) 9999

theorem fieldValue_append_one (field : List UInt8) (ch : UInt8) :
    fieldValue (field ++ [ch]) =
      min (fieldValue field * 10 + digitOf ch) 9999 := by
  unfold fieldValue
  rw [decimalValue_append_one]
  omega

theorem fieldValue_eq_zero (field : List UInt8) :
    fieldValue field = 0 ↔ decimalValue field = 0 := by
  unfold fieldValue
  omega

/-- The fields read so far are the parameters, in order. Before the first
digit or semicolon none is counted, and the one being read is empty. -/
structure Reading (fields : List (List UInt8)) (term : Term) : Prop where
  state : term.state = .inCsi
  counted : max 1 term.paramCount = fields.length
  params : ∀ i, term.params i = fieldValue (fields[i]?.getD [])

namespace Reading

variable {fields : List (List UInt8)} {field : List UInt8} {term : Term}

theorem start (ground : term.state = .ground) :
    Reading [[]] (termFeed [0x1b, 0x5b] term) ∧
      (termFeed [0x1b, 0x5b] term).paramCount = 0 := by
  rw [Term.termFeed_escaped ground 0x5b []]
  refine ⟨⟨rfl, rfl, fun i => ?_⟩, rfl⟩
  cases i <;> rfl

theorem digit (reading : Reading (fields ++ [field]) term)
    (few : fields.length < maxParams) {ch : UInt8} (digit : IsDigit ch) :
    Reading (fields ++ [field ++ [ch]]) (term.feedByte ch) ∧
      1 ≤ (term.feedByte ch).paramCount := by
  obtain ⟨state, counted, params⟩ := reading
  rw [List.length_append, List.length_singleton] at counted
  have fed : term.feedByte ch = term.feedDigit (digitOf ch) := by
    rw [Term.feedByte_inCsi _ state, Term.feedInCsi, if_pos digit]
    rfl
  rw [fed, Term.feedDigit_eq _ (by omega)]
  refine ⟨⟨state, ?_, fun i => ?_⟩, Nat.le_max_left 1 _⟩
  · rw [List.length_append, List.length_singleton]
    dsimp only
    omega
  · dsimp only
    rw [params i, counted, Nat.add_sub_cancel]
    split
    · rename_i last
      rw [last, List.getElem?_concat_length, List.getElem?_concat_length]
      exact (fieldValue_append_one field ch).symm
    · rename_i other
      grind

theorem digits (reading : Reading (fields ++ [field]) term)
    (few : fields.length < maxParams) {text : List UInt8}
    (digits : ∀ ch ∈ text, IsDigit ch) :
    Reading (fields ++ [field ++ text]) (termFeed text term) ∧
      (1 ≤ term.paramCount ∨ text ≠ [] →
        1 ≤ (termFeed text term).paramCount) := by
  induction text generalizing field term with
  | nil =>
      rw [List.append_nil]
      exact ⟨reading, fun begun => begun.resolve_right (absurd rfl)⟩
  | cons ch rest ih =>
      obtain ⟨read, begun⟩ := reading.digit few (digits ch List.mem_cons_self)
      obtain ⟨all, still⟩ := ih read fun other member =>
        digits other (List.mem_cons_of_mem ch member)
      rw [List.append_assoc, List.singleton_append] at all
      exact ⟨all, fun _ => still (.inl begun)⟩

theorem feed_semicolon (reading : Reading fields term)
    (few : term.paramCount < maxParams) :
    term.feedByte 0x3b =
      { term with paramCount := term.paramCount + 1, paramSeen := true } := by
  rw [Term.feedByte_inCsi _ reading.state]
  change term.feedSemicolon = _
  rw [Term.feedSemicolon, if_pos few]

/-- A semicolon before anything is counted only counts the empty field in
front of it, so what follows is still the first parameter. -/
theorem leading_semicolon (reading : Reading [[]] term)
    (uncounted : term.paramCount = 0) :
    Reading [[]] (term.feedByte 0x3b) ∧
      1 ≤ (term.feedByte 0x3b).paramCount := by
  rw [reading.feed_semicolon (by rw [uncounted]; decide), uncounted]
  exact ⟨⟨reading.state, rfl, reading.params⟩, Nat.le_refl 1⟩

theorem semicolon (reading : Reading fields term)
    (begun : 1 ≤ term.paramCount) (few : fields.length < maxParams) :
    Reading (fields ++ [[]]) (term.feedByte 0x3b) ∧
      1 ≤ (term.feedByte 0x3b).paramCount := by
  have counted := reading.counted
  rw [reading.feed_semicolon (by omega)]
  obtain ⟨state, _, params⟩ := reading
  refine ⟨⟨state, ?_, fun i => ?_⟩, Nat.le_add_left 1 _⟩
  · rw [List.length_append, List.length_singleton]
    dsimp only
    omega
  · dsimp only
    rw [params i]
    grind

theorem further (reading : Reading fields term) (begun : 1 ≤ term.paramCount)
    {rest : List (List UInt8)} (few : fields.length + rest.length ≤ maxParams)
    (digits : ∀ field ∈ rest, ∀ ch ∈ field, IsDigit ch) :
    Reading (fields ++ rest)
        (termFeed (rest.flatMap fun field => 0x3b :: field) term) ∧
      1 ≤ (termFeed (rest.flatMap fun field => 0x3b :: field)
        term).paramCount := by
  induction rest generalizing fields term with
  | nil =>
      rw [List.append_nil]
      exact ⟨reading, begun⟩
  | cons field rest ih =>
      rw [List.length_cons] at few
      obtain ⟨opened, counted⟩ := reading.semicolon begun (by omega)
      obtain ⟨read, still⟩ := opened.digits (by omega)
        (digits field List.mem_cons_self)
      rw [List.flatMap_cons, termFeed_append, List.append_cons]
      exact ih read (still (.inl counted))
        (by rw [List.length_append, List.length_singleton]; omega)
        fun other member => digits other (List.mem_cons_of_mem field member)

/-- With all places taken, the digits of what follows go to the last one. -/
theorem surplus (reading : Reading (fields ++ [field]) term)
    (full : fields.length + 1 = maxParams) {rest : List (List UInt8)}
    (digits : ∀ field ∈ rest, ∀ ch ∈ field, IsDigit ch) :
    Reading (fields ++ [field ++ rest.flatten])
      (termFeed (rest.flatMap fun field => 0x3b :: field) term) := by
  induction rest generalizing field term with
  | nil =>
      rw [List.flatten_nil, List.append_nil]
      exact reading
  | cons next rest ih =>
      have counted := reading.counted
      rw [List.length_append, List.length_singleton, full] at counted
      have several : 1 < maxParams := by decide
      have last : term.feedByte 0x3b = { term with paramSeen := true } := by
        rw [Term.feedByte_inCsi _ reading.state]
        change term.feedSemicolon = _
        rw [Term.feedSemicolon, if_neg (by omega)]
      have stays : Reading (fields ++ [field]) (term.feedByte 0x3b) := by
        rw [last]
        exact ⟨reading.state, reading.counted, reading.params⟩
      have room : fields.length < maxParams := by omega
      have read := (stays.digits room (digits next List.mem_cons_self)).1
      rw [List.flatMap_cons, termFeed_append, List.flatten_cons,
        ← List.append_assoc]
      exact ih read fun other member =>
        digits other (List.mem_cons_of_mem next member)

end Reading

theorem csiFields_cons (first : List UInt8) (rest : List (List UInt8)) :
    csiFields (first :: rest) =
      [0x1b, 0x5b] ++ (first ++ rest.flatMap fun field => 0x3b :: field) := by
  unfold csiFields
  congr 1
  induction rest generalizing first with
  | nil => simp [List.intercalate]
  | cons next rest ih =>
      have joined : [0x3b].intercalate (first :: next :: rest) =
          first ++ (0x3b :: [0x3b].intercalate (next :: rest)) := by
        simp [List.intercalate]
      rw [joined, ih, List.flatMap_cons, List.cons_append]

/-- The fields that become parameters: the semicolon behind an empty first
field starts the first one. -/
def named : List (List UInt8) → List (List UInt8)
  | [] => []
  | first :: rest => if first = [] then rest else first :: rest

theorem csiFields_read {term : Term} (ground : term.state = .ground)
    {first : List UInt8} {rest : List (List UInt8)}
    (few : (first :: rest).length ≤ maxParams)
    (digits : ∀ field ∈ first :: rest, ∀ ch ∈ field, IsDigit ch) :
    (termFeed (csiFields (first :: rest)) term).paramCount =
        (named (first :: rest)).length ∧
      ∀ i, (termFeed (csiFields (first :: rest)) term).params i =
        fieldValue ((named (first :: rest))[i]?.getD []) := by
  obtain ⟨start, uncounted⟩ := Reading.start ground
  rw [csiFields_cons, termFeed_append, termFeed_append]
  generalize termFeed [0x1b, 0x5b] term = opened at start uncounted
  have firstDigits := digits first List.mem_cons_self
  have restDigits := fun field member =>
    digits field (List.mem_cons_of_mem first member)
  rw [List.length_cons] at few
  rw [named]
  split
  · rename_i empty
    subst empty
    cases rest with
    | nil =>
        refine ⟨uncounted, fun i => ?_⟩
        change opened.params i = _
        rw [start.params i]
        cases i <;> rfl
    | cons second rest =>
        rw [List.length_cons] at few
        obtain ⟨skipped, counted⟩ := start.leading_semicolon uncounted
        have one : Reading ([] ++ [[]]) (opened.feedByte 0x3b) := skipped
        obtain ⟨read, begun⟩ :=
          one.digits (by decide) (restDigits second List.mem_cons_self)
        obtain ⟨all, some⟩ := read.further (begun (.inl counted))
          (show 1 + rest.length ≤ maxParams by omega) fun field member =>
            restDigits field (List.mem_cons_of_mem second member)
        rw [← termFeed_append] at all some
        exact ⟨(max_eq_right some).symm.trans all.counted, all.params⟩
  · rename_i nonempty
    have one : Reading ([] ++ [[]]) opened := start
    obtain ⟨read, begun⟩ := one.digits (by decide) firstDigits
    obtain ⟨all, some⟩ := read.further (begun (.inr nonempty))
      (show 1 + rest.length ≤ maxParams by omega) restDigits
    exact ⟨(max_eq_right some).symm.trans all.counted, all.params⟩

/-- The parameters are the fields in order, but without the first one if that
is empty: the semicolon behind it starts the first parameter. -/
theorem csiFields_params {term : Term} (ground : term.state = .ground)
    {first : List UInt8} {rest : List (List UInt8)}
    (few : (first :: rest).length ≤ maxParams)
    (digits : ∀ field ∈ first :: rest, ∀ ch ∈ field, IsDigit ch) (i : Nat) :
    (termFeed (csiFields (first :: rest)) term).params i =
      fieldValue
        ((if first = [] then rest else first :: rest)[i]?.getD []) :=
  (csiFields_read ground few digits).2 i

/-- The parameters keep the places of their fields exactly if the first field
is written out, or nothing but zeroes is. -/
theorem csiFields_in_place_iff {term : Term} (ground : term.state = .ground)
    {fields : List (List UInt8)} (some_field : fields ≠ [])
    (few : fields.length ≤ maxParams)
    (digits : ∀ field ∈ fields, ∀ ch ∈ field, IsDigit ch) :
    (∀ (i : Nat) (found : i < fields.length),
      (termFeed (csiFields fields) term).params i =
        min (decimalValue fields[i]) 9999) ↔
    fields.head some_field ≠ [] ∨ ∀ field ∈ fields, decimalValue field = 0 := by
  obtain ⟨first, rest, rfl⟩ := List.exists_cons_of_ne_nil some_field
  rw [List.head_cons]
  have put := csiFields_params ground few digits
  constructor
  · intro inPlace
    by_cases empty : first = []
    · right
      -- each field is found where the one before it belongs
      have zero (i : Nat) (found : i < (first :: rest).length) :
          fieldValue (first :: rest)[i] = 0 := by
        induction i with
        | zero =>
            rw [List.getElem_cons_zero, empty]
            rfl
        | succ i ih =>
            have shifted := inPlace i (by omega)
            rw [put, if_pos empty,
              List.getElem?_eq_getElem (by simpa using found)] at shifted
            rw [List.getElem_cons_succ, ← ih (by omega)]
            exact shifted
      intro field member
      obtain ⟨i, found, rfl⟩ := List.getElem_of_mem member
      exact (fieldValue_eq_zero _).mp (zero i found)
    · exact .inl empty
  · rintro (nonempty | zero) i found
    · rw [put, if_neg nonempty, List.getElem?_eq_getElem found]
      rfl
    · have kept : ∀ field ∈ if first = [] then rest else first :: rest,
          fieldValue field = 0 := by
        intro field member
        refine (fieldValue_eq_zero field).mpr (zero field ?_)
        split at member
        · exact List.mem_cons_of_mem first member
        · exact member
      rw [put, zero _ (List.getElem_mem found)]
      generalize (if first = [] then rest else first :: rest) = fields at kept
      cases read : fields[i]? with
      | none => rfl
      | some field => exact kept field (List.mem_of_getElem? read)

theorem csiFields_in_place_omitted :
    let fields : List (List UInt8) := [[0x31, 0x32], [], [0x35]]
    (∀ (i : Nat) (found : i < fields.length),
      (termFeed (csiFields fields) initial).params i =
        min (decimalValue fields[i]) 9999) ↔
    ([0x31, 0x32] : List UInt8) ≠ [] ∨
      ∀ field ∈ fields, decimalValue field = 0 := by
  intro fields
  have ground : initial.state = .ground := rfl
  have few : fields.length ≤ maxParams := by decide
  have digits : ∀ field ∈ fields, ∀ ch ∈ field, IsDigit ch := by decide +kernel
  exact csiFields_in_place_iff ground (List.cons_ne_nil _ _) few digits

/-- `ESC [ ; 5` makes 5 the first parameter. -/
theorem leading_semicolon_shifts :
    ¬ ∀ (i : Nat) (found : i < ([[], [0x35]] : List (List UInt8)).length),
      (termFeed (csiFields [[], [0x35]]) initial).params i =
        min (decimalValue ([[], [0x35]] : List (List UInt8))[i]) 9999 :=
  fun inPlace => absurd (inPlace 0 (by decide)) (by decide)

end Pspssh.Terminal
