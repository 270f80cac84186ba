import Pspssh.Data.Text
import Pspssh.Terminal.Params
import Pspssh.Terminal.Settled

namespace Pspssh.Terminal

open Pspssh.Data

/-! Lists of parameters as a sequence spells them, and what SGR makes of
them. -/

def joined (fields : List (List UInt8)) : List UInt8 :=
  [0x3b].intercalate fields

def Digits (fields : List (List UInt8)) : Prop :=
  ∀ field ∈ fields, ∀ ch ∈ field, IsDigit ch

/-- The codes that SGR carries out for the fields: 0 if there are none. -/
def codes (fields : List (List UInt8)) : List Nat :=
  if named fields = [] then [0] else (named fields).map fieldValue

theorem isBody_of_digit {ch : UInt8} (digit : IsDigit ch) : IsBody ch :=
  ⟨UInt8.le_trans (by decide) digit.1, UInt8.le_trans digit.2 (by decide)⟩

theorem joined_cons (first : List UInt8) (rest : List (List UInt8)) :
    joined (first :: rest) =
      first ++ rest.flatMap fun field => 0x3b :: field :=
  List.append_cancel_left (csiFields_cons first rest)

theorem isBody_joined {fields : List (List UInt8)} (digits : Digits fields) :
    ∀ ch ∈ joined fields, IsBody ch := by
  cases fields with
  | nil => exact fun ch member => absurd member List.not_mem_nil
  | cons first rest =>
      intro ch member
      rw [joined_cons] at member
      rcases List.mem_append.mp member with here | behind
      · exact isBody_of_digit (digits first List.mem_cons_self ch here)
      · obtain ⟨field, inside, here⟩ := List.mem_flatMap.mp behind
        rcases List.mem_cons.mp here with rfl | digit
        · decide
        · exact isBody_of_digit
            (digits field (List.mem_cons_of_mem first inside) ch digit)

/-! ## The parameters of a list -/

namespace Parameters

/-- What is spelt is what a terminal has read in front of the final byte. -/
theorem spelt_eq {body : List UInt8} (whole : ∀ ch ∈ body, IsBody ch) :
    (spelt body).values = (termFeed ([0x1b, 0x5b] ++ body) initial).params ∧
      (spelt body).count =
        (termFeed ([0x1b, 0x5b] ++ body) initial).paramCount := by
  have ground : initial.state = .ground := rfl
  obtain ⟨marker, opened⟩ := Term.termFeed_opened ground whole
  rw [opened]
  exact ⟨rfl, rfl⟩

theorem counted_eq {given : Parameters} {fields : List (List UInt8)}
    (count : given.count = fields.length)
    (values : ∀ i, given.values i = fieldValue (fields[i]?.getD [])) :
    counted given.values given.count = fields.map fieldValue := by
  unfold counted
  rw [count]
  apply List.ext_getElem
  · simp
  · intro i left right
    rw [List.getElem_map, List.getElem_range, List.getElem_map, values,
      List.getElem?_eq_getElem (by simpa using left)]
    rfl

theorem spelt_joined {fields : List (List UInt8)}
    (few : fields.length ≤ maxParams) (digits : Digits fields) :
    (spelt (joined fields)).count = (named fields).length ∧
      ∀ i, (spelt (joined fields)).values i =
        fieldValue ((named fields)[i]?.getD []) := by
  cases fields with
  | nil => exact ⟨rfl, fun _ => rfl⟩
  | cons first rest =>
      obtain ⟨values, count⟩ := spelt_eq (isBody_joined digits)
      rw [values, count]
      exact csiFields_read rfl few digits

theorem settings_eq {given : Parameters} {fields : List (List UInt8)}
    (some_field : fields ≠ []) (count : given.count = fields.length)
    (values : ∀ i, given.values i = fieldValue (fields[i]?.getD [])) :
    given.settings = Setting.ofParams (fields.map fieldValue) := by
  have counts : given.count ≠ 0 := by
    rw [count]
    exact mt List.eq_nil_of_length_eq_zero some_field
  rw [settings, if_neg counts, counted_eq count values]

theorem settings_joined {fields : List (List UInt8)}
    (few : fields.length ≤ maxParams) (digits : Digits fields) :
    (spelt (joined fields)).settings = Setting.ofParams (codes fields) := by
  obtain ⟨count, values⟩ := spelt_joined few digits
  unfold codes
  by_cases none : named fields = []
  · rw [settings, if_pos (by rw [count, none]; rfl), if_pos none]
  · rw [settings_eq none count values, if_neg none]

end Parameters

namespace Term

theorem termFeed_sgr {term : Term} (safe : term.Safe)
    (ground : term.state = .ground) {body : List UInt8}
    (whole : ∀ ch ∈ body, IsBody ch) :
    (termFeed (csi body 0x6d) term).settled =
      term.settled.withPen
        ((Parameters.spelt body).settings.foldl Setting.apply term.pen) := by
  obtain ⟨marker, fed⟩ := termFeed_csi ground whole (by decide : IsFinal 0x6d)
  obtain ⟨params, count, applied⟩ :=
    applySgr_eq (safe.collecting ground whole marker).paramCount_le
  have dispatched :
      (term.collecting (Parameters.spelt body) marker).dispatchCsi 0x6d =
        (term.collecting (Parameters.spelt body) marker).applySgr := rfl
  rw [fed, dispatched, applied]
  unfold settled collecting withPen
  rw [← ground]
  rfl

theorem termFeed_codes {term : Term} (safe : term.Safe)
    (ground : term.state = .ground) {fields : List (List UInt8)}
    (few : fields.length ≤ maxParams) (digits : Digits fields) :
    (termFeed (csi (joined fields) 0x6d) term).settled =
      term.settled.withPen
        ((Setting.ofParams (codes fields)).foldl Setting.apply term.pen) := by
  rw [termFeed_sgr safe ground (isBody_joined digits),
    Parameters.settings_joined few digits]

theorem display_of_settled {before after : Term} {pen : Pen}
    (set : after.settled = before.settled.withPen pen) :
    { after.display with pen := before.pen } = before.display := by
  have shown : after.display = { before.display with pen := pen } :=
    congrArg display set
  rw [shown]
  rfl

end Term

/-! ## Lists of numbers written out -/

def Decimals (fields : List (List UInt8)) : Prop :=
  ∀ field ∈ fields, field ≠ [] ∧ ∀ ch ∈ field, IsDigit ch

theorem Decimals.digits {fields : List (List UInt8)}
    (decimals : Decimals fields) : Digits fields :=
  fun field member => (decimals field member).2

theorem named_append {first : List (List UInt8)} (some_field : first ≠ [])
    (second : List (List UInt8)) :
    named (first ++ second) = named first ++ second := by
  obtain ⟨field, rest, rfl⟩ := List.exists_cons_of_ne_nil some_field
  rw [List.cons_append, named, named]
  split
  · rfl
  · rfl

theorem named_cons {field : List UInt8} (some_digit : field ≠ [])
    (rest : List (List UInt8)) : named (field :: rest) = field :: rest :=
  if_neg some_digit

theorem codes_cons {field : List UInt8} (some_digit : field ≠ [])
    (rest : List (List UInt8)) :
    codes (field :: rest) = (field :: rest).map fieldValue := by
  rw [codes, named_cons some_digit, if_neg (List.cons_ne_nil field rest)]

theorem Decimals.codes {fields : List (List UInt8)}
    (decimals : Decimals fields) (some_field : fields ≠ []) :
    codes fields = fields.map fieldValue := by
  obtain ⟨field, rest, rfl⟩ := List.exists_cons_of_ne_nil some_field
  exact codes_cons (decimals field List.mem_cons_self).1 rest

theorem fieldValue_eq_iff {field : List UInt8} {value : Nat}
    (small : value < 9999) :
    fieldValue field = value ↔ decimalValue field = value := by
  unfold fieldValue
  omega

theorem Setting.Whole.fieldValue {fields : List (List UInt8)}
    (whole : Whole (fields.map decimalValue)) :
    Whole (fields.map fieldValue) := by
  generalize values : fields.map decimalValue = params at whole
  induction whole generalizing fields with
  | nil =>
      rw [List.map_eq_nil_iff.mp values]
      exact .nil
  | single text ground _ ih =>
      obtain ⟨field, rest, rfl, rfl, others⟩ := List.map_eq_cons_iff.mp values
      exact .single (mt (fieldValue_eq_iff (by decide)).mp text)
        (mt (fieldValue_eq_iff (by decide)).mp ground) (ih others)
  | indexed extended _ ih =>
      obtain ⟨kind, tail, rfl, rfl, inner⟩ := List.map_eq_cons_iff.mp values
      obtain ⟨five, tail, rfl, indexed, inner⟩ := List.map_eq_cons_iff.mp inner
      obtain ⟨colour, rest, rfl, rfl, others⟩ := List.map_eq_cons_iff.mp inner
      rw [List.map_cons, List.map_cons, List.map_cons,
        (fieldValue_eq_iff (by decide)).mpr indexed]
      exact .indexed
        (extended.imp (fieldValue_eq_iff (by decide)).mpr
          (fieldValue_eq_iff (by decide)).mpr) (ih others)

/-- A list of codes that ends with a whole one may be cut into two
sequences. -/
theorem sgr_lists_compose (c r : Int) (calls : List TermCall)
    (ground : (runCalls calls (termReset c r initial)).state = .ground)
    {xs ys : List (List UInt8)} (some_x : xs ≠ []) (some_y : ys ≠ [])
    (few : xs.length + ys.length ≤ maxParams) (decimals : Decimals (xs ++ ys))
    (whole : Setting.Whole (xs.map decimalValue)) :
    let before := runCalls calls (termReset c r initial)
    let once := termFeed (csi (joined (xs ++ ys)) 0x6d) before
    let twice := termFeed (csi (joined ys) 0x6d)
      (termFeed (csi (joined xs) 0x6d) before)
    once.settled = twice.settled ∧
      { once.display with pen := before.pen } = before.display ∧
      { twice.display with pen := before.pen } = before.display := by
  intro before once twice
  have safe : before.Safe := (Term.Safe.fresh c r).runCalls calls
  have xsDecimals : Decimals xs := fun field member =>
    decimals field (List.mem_append_left ys member)
  have ysDecimals : Decimals ys := fun field member =>
    decimals field (List.mem_append_right xs member)
  have first := Term.termFeed_codes safe ground
    (show xs.length ≤ maxParams by omega) xsDecimals.digits
  have pen := congrArg Term.pen first
  have state := congrArg Term.state first
  rw [Term.withPen_pen, Term.settled_pen] at pen
  have second := Term.termFeed_codes (safe.termFeed (csi (joined xs) 0x6d))
    (state.trans ground) (show ys.length ≤ maxParams by omega)
    ysDecimals.digits
  rw [first, pen] at second
  have all := Term.termFeed_codes safe ground
    (show (xs ++ ys).length ≤ maxParams by rwa [List.length_append])
    decimals.digits
  have same : once.settled = twice.settled := by
    refine all.trans (Eq.trans ?_ second.symm)
    rw [decimals.codes (List.append_ne_nil_of_left_ne_nil some_x ys),
      xsDecimals.codes some_x, ysDecimals.codes some_y, List.map_append,
      Setting.ofParams_append whole.fieldValue, List.foldl_append]
    rfl
  exact ⟨same, Term.display_of_settled all,
    Term.display_of_settled (same.symm.trans all)⟩

/-- `ESC [ 1 ; 38 ; 5 ; 9 ; 44 m` -/
theorem sgr_lists_compose_indexed :
    let before := runCalls [] (termReset 80 24 initial)
    (termFeed (csi (ascii "1;38;5;9;44") 0x6d) before).settled =
      (termFeed (csi (ascii "44") 0x6d)
        (termFeed (csi (ascii "1;38;5;9") 0x6d) before)).settled := by
  have decimals : Decimals ([ascii "1", ascii "38", ascii "5", ascii "9"] ++
      [ascii "44"]) := by
    unfold Decimals
    decide +kernel
  have whole : Setting.Whole
      ([ascii "1", ascii "38", ascii "5", ascii "9"].map decimalValue) :=
    .single (by decide) (by decide) (.indexed (.inl rfl) .nil)
  exact (sgr_lists_compose 80 24 [] rfl (by decide) (by decide) (by decide)
    decimals whole).1

/-! ## 24-bit colour -/

theorem mem_named {field : List UInt8} {fields : List (List UInt8)}
    (member : field ∈ named fields) : field ∈ fields := by
  cases fields with
  | nil => exact member
  | cons first rest =>
      rw [named] at member
      split at member
      · exact List.mem_cons_of_mem first member
      · exact member

theorem codes_append (first : List (List UInt8)) {field : List UInt8}
    (some_digit : field ≠ []) (rest : List (List UInt8)) :
    codes (first ++ field :: rest) =
      (named first).map fieldValue ++ (field :: rest).map fieldValue := by
  have read : named (first ++ field :: rest) = named first ++ field :: rest := by
    cases first with
    | nil => exact named_cons some_digit rest
    | cons other first => exact named_append (List.cons_ne_nil other first) _
  rw [codes, read, if_neg (List.append_ne_nil_of_right_ne_nil _
    (List.cons_ne_nil field rest)), List.map_append]

/-- The group is no group to the program, which carries out 2, r, g and b. -/
theorem ofParams_group {before : List (List UInt8)} {kind : List UInt8}
    (extended : kind = ascii "38" ∨ kind = ascii "48")
    (others : ∀ field ∈ before, decimalValue field ≠ 38 ∧
      decimalValue field ≠ 48) (rest : List (List UInt8)) :
    Setting.ofParams (codes (before ++ kind :: ascii "2" :: rest)) =
      Setting.ofParams (codes (before ++ ascii "2" :: rest)) := by
  have whole : Setting.Whole ((named before).map fieldValue) := by
    refine .of_forall fun p member => ?_
    obtain ⟨field, inside, rfl⟩ := List.mem_map.mp member
    obtain ⟨text, ground⟩ := others field (mem_named inside)
    exact ⟨mt (fieldValue_eq_iff (by decide)).mp text,
      mt (fieldValue_eq_iff (by decide)).mp ground⟩
  have value : fieldValue kind = 38 ∨ fieldValue kind = 48 := by
    rcases extended with rfl | rfl
    · exact .inl (by decide +kernel)
    · exact .inr (by decide +kernel)
  have written : kind ≠ [] := by
    rcases extended with rfl | rfl
    · decide +kernel
    · decide +kernel
  have two : fieldValue (ascii "2") ≠ 5 := by decide +kernel
  rw [codes_append before written, codes_append before (by decide +kernel),
    Setting.ofParams_append whole, Setting.ofParams_append whole,
    List.map_cons, List.map_cons, Setting.ofParams_extended value two]

/-- A group of 24-bit colour goes unnoticed exactly if 2, r, g and b, read as
codes of their own, set nothing that is not set without them. -/
theorem colour_group_unnoticed_iff (c r : Int) (calls : List TermCall)
    (ground : (runCalls calls (termReset c r initial)).state = .ground)
    {before after : List (List UInt8)} {kind red green blue : List UInt8}
    (extended : kind = ascii "38" ∨ kind = ascii "48")
    (few : before.length + 5 + after.length ≤ maxParams)
    (digits : Digits (before ++ [kind, ascii "2", red, green, blue] ++ after))
    (others : ∀ field ∈ before ++ after, decimalValue field ≠ 38 ∧
      decimalValue field ≠ 48) :
    let term := runCalls calls (termReset c r initial)
    let coloured := before ++ [kind, ascii "2", red, green, blue] ++ after
    let plain := before ++ after
    (termFeed (csi (joined coloured) 0x6d) term).settled =
        (if plain = [] then term
          else termFeed (csi (joined plain) 0x6d) term).settled ↔
      Setting.Agreed
        (Setting.ofParams
          (codes (before ++ [ascii "2", red, green, blue] ++ after)))
        (if plain = [] then [] else Setting.ofParams (codes plain))
        term.pen := by
  intro term coloured plain
  have safe : term.Safe := (Term.Safe.fresh c r).runCalls calls
  have length : coloured.length = before.length + 5 + after.length := by
    simp only [coloured, List.length_append, List.length_cons, List.length_nil]
  have group : Setting.ofParams (codes coloured) = Setting.ofParams
      (codes (before ++ [ascii "2", red, green, blue] ++ after)) := by
    simp only [coloured, List.append_assoc, List.cons_append]
    exact ofParams_group extended
      (fun field member => others field (List.mem_append_left after member)) _
  have fed := Term.termFeed_codes safe ground (length.trans_le few) digits
  rw [group] at fed
  rw [← Setting.foldl_apply_eq_foldl_iff]
  by_cases nothing : plain = []
  · rw [if_pos nothing, if_pos nothing]
    change (termFeed (csi (joined coloured) 0x6d) term).settled =
      term.settled.withPen term.pen ↔ _
    rw [fed, Term.withPen_inj]
    rfl
  · have plainDigits : Digits plain := by
      intro field member
      refine digits field ?_
      rcases List.mem_append.mp member with here | here
      · exact List.mem_append_left _ (List.mem_append_left _ here)
      · exact List.mem_append_right _ here
    have plainFew : plain.length ≤ maxParams := by
      simp only [plain, List.length_append]
      omega
    rw [if_neg nothing, if_neg nothing, fed,
      Term.termFeed_codes safe ground plainFew plainDigits, Term.withPen_inj]

/-- A grey of which no code sets anything: `ESC [ 1 ; 38 ; 2 ; 200 ; 200 ; 200
; 22 m` -/
theorem colour_group_unnoticed_grey :
    let term := runCalls [] (termReset 80 24 initial)
    (termFeed (csi (ascii "1;38;2;200;200;200;22") 0x6d) term).settled =
      (termFeed (csi (ascii "1;22") 0x6d) term).settled := by
  have digits : Digits ([ascii "1"] ++ [ascii "38", ascii "2", ascii "200",
      ascii "200", ascii "200"] ++ [ascii "22"]) := by
    unfold Digits
    decide +kernel
  refine (colour_group_unnoticed_iff 80 24 [] rfl (.inl rfl) (by decide) digits
    (by decide +kernel)).mpr ?_
  constructor
  · decide +kernel
  · decide +kernel
  · decide +kernel
  · decide +kernel

/-- An orange, of which 100 and 31 are carried out: `ESC [ 38 ; 2 ; 255 ; 100 ;
31 m` -/
theorem orange_turns_red :
    let term := runCalls [] (termReset 80 24 initial)
    let group := [ascii "38", ascii "2", ascii "255", ascii "100", ascii "31"]
    term.state = .ground ∧
      (termFeed (csi (joined group) 0x6d) term).settled ≠ term.settled := by
  refine ⟨rfl, fun same => ?_⟩
  have pens := congrArg Term.pen same
  exact absurd pens (by decide +kernel)

end Pspssh.Terminal
