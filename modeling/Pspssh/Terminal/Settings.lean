import Pspssh.Terminal.Csi

namespace Pspssh.Terminal

/-! What a list of SGR parameters sets, and when that leaves the pen alone. -/

attribute [ext] Pen

inductive Setting where
  | reset
  | bold (on : Bool)
  | reverse (on : Bool)
  | fg (colour : Nat)
  | bg (colour : Nat)
  deriving DecidableEq

namespace Setting

def fgOf : Setting → Option Nat
  | reset => some defaultFg
  | fg colour => some colour
  | _ => none

def bgOf : Setting → Option Nat
  | reset => some defaultBg
  | bg colour => some colour
  | _ => none

def boldOf : Setting → Option Bool
  | reset => some false
  | bold on => some on
  | _ => none

def reverseOf : Setting → Option Bool
  | reset => some false
  | reverse on => some on
  | _ => none

def apply (pen : Pen) (setting : Setting) : Pen where
  fg := setting.fgOf.getD pen.fg
  bg := setting.bgOf.getD pen.bg
  bold := setting.boldOf.getD pen.bold
  reverse := setting.reverseOf.getD pen.reverse

def ofParam (p : Nat) : Option Setting :=
  if p = 0 then some reset
  else if p = 1 then some (bold true)
  else if p = 2 ∨ p = 22 then some (bold false)
  else if p = 7 then some (reverse true)
  else if p = 27 then some (reverse false)
  else if 30 ≤ p ∧ p ≤ 37 then some (fg (p - 30))
  else if p = 39 then some (fg defaultFg)
  else if 40 ≤ p ∧ p ≤ 47 then some (bg (p - 40))
  else if p = 49 then some (bg defaultBg)
  else if 90 ≤ p ∧ p ≤ 97 then some (fg (p - 90 + 8))
  else if 100 ≤ p ∧ p ≤ 107 then some (bg (p - 100 + 8))
  else none

def ofParams : List Nat → List Setting
  | 38 :: 5 :: colour :: rest => fg (Term.foldColour colour) :: ofParams rest
  | 48 :: 5 :: colour :: rest => bg (Term.foldColour colour) :: ofParams rest
  | p :: rest => (ofParam p).toList ++ ofParams rest
  | [] => []

/-- The last setting of each kind is what the pen has already. -/
structure Kept (settings : List Setting) (pen : Pen) : Prop where
  fg : ∀ colour ∈ (settings.filterMap fgOf).getLast?, colour = pen.fg
  bg : ∀ colour ∈ (settings.filterMap bgOf).getLast?, colour = pen.bg
  bold : ∀ on ∈ (settings.filterMap boldOf).getLast?, on = pen.bold
  reverse : ∀ on ∈ (settings.filterMap reverseOf).getLast?, on = pen.reverse

/-- For each part of the pen, the last setting of either list gives it the
value that the last one of the other does, or the pen where a list has none. -/
structure Agreed (first second : List Setting) (pen : Pen) : Prop where
  fg : (first.filterMap fgOf).getLast?.getD pen.fg =
    (second.filterMap fgOf).getLast?.getD pen.fg
  bg : (first.filterMap bgOf).getLast?.getD pen.bg =
    (second.filterMap bgOf).getLast?.getD pen.bg
  bold : (first.filterMap boldOf).getLast?.getD pen.bold =
    (second.filterMap boldOf).getLast?.getD pen.bold
  reverse : (first.filterMap reverseOf).getLast?.getD pen.reverse =
    (second.filterMap reverseOf).getLast?.getD pen.reverse

theorem foldl_apply {α : Type} (part : Pen → α) {partOf : Setting → Option α}
    (each : ∀ pen setting,
      part (apply pen setting) = (partOf setting).getD (part pen))
    (settings : List Setting) (pen : Pen) :
    part (settings.foldl apply pen) =
      (settings.filterMap partOf).getLast?.getD (part pen) := by
  induction settings generalizing pen with
  | nil => rfl
  | cons setting settings ih =>
      rw [List.foldl_cons, ih, each]
      cases sets : partOf setting with
      | none => rw [List.filterMap_cons_none sets]; rfl
      | some value =>
          rw [List.filterMap_cons_some sets, List.getLast?_cons]
          rfl

theorem getD_eq_self_iff {α : Type} {last : Option α} {own : α} :
    last.getD own = own ↔ ∀ value ∈ last, value = own := by
  cases last with
  | none => simp
  | some value => simp

theorem foldl_apply_eq_foldl_iff (first second : List Setting) (pen : Pen) :
    first.foldl apply pen = second.foldl apply pen ↔
      Agreed first second pen := by
  have fg (settings : List Setting) :=
    foldl_apply Pen.fg (fun _ _ => rfl) settings pen
  have bg (settings : List Setting) :=
    foldl_apply Pen.bg (fun _ _ => rfl) settings pen
  have bold (settings : List Setting) :=
    foldl_apply Pen.bold (fun _ _ => rfl) settings pen
  have reverse (settings : List Setting) :=
    foldl_apply Pen.reverse (fun _ _ => rfl) settings pen
  constructor
  · intro same
    constructor
    · rw [← fg, ← fg, same]
    · rw [← bg, ← bg, same]
    · rw [← bold, ← bold, same]
    · rw [← reverse, ← reverse, same]
  · intro agreed
    ext
    · exact (fg first).trans (agreed.fg.trans (fg second).symm)
    · exact (bg first).trans (agreed.bg.trans (bg second).symm)
    · exact (bold first).trans (agreed.bold.trans (bold second).symm)
    · exact (reverse first).trans (agreed.reverse.trans (reverse second).symm)

theorem foldl_apply_eq_iff (settings : List Setting) (pen : Pen) :
    settings.foldl apply pen = pen ↔ Kept settings pen := by
  have agreed := foldl_apply_eq_foldl_iff settings [] pen
  constructor
  · intro same
    obtain ⟨fg, bg, bold, reverse⟩ := agreed.mp same
    exact ⟨getD_eq_self_iff.mp fg, getD_eq_self_iff.mp bg,
      getD_eq_self_iff.mp bold, getD_eq_self_iff.mp reverse⟩
  · intro kept
    exact agreed.mpr ⟨getD_eq_self_iff.mpr kept.fg,
      getD_eq_self_iff.mpr kept.bg, getD_eq_self_iff.mpr kept.bold,
      getD_eq_self_iff.mpr kept.reverse⟩

/-! ## The loop of `apply_sgr` -/

theorem foldl_ite {test : Prop} [Decidable test] {setting : Setting}
    {other : Option Setting} {pen left : Pen}
    (next : other.toList.foldl apply pen = left) :
    (if test then some setting else other).toList.foldl apply pen =
      if test then apply pen setting else left := by
  split
  · rfl
  · exact next

theorem foldl_ofParam (p : Nat) (pen : Pen) :
    (ofParam p).toList.foldl apply pen = Term.applySgrOne p pen := by
  unfold ofParam Term.applySgrOne
  iterate 11 refine foldl_ite ?_
  rfl

theorem ofParams_cons {p : Nat} {rest : List Nat}
    (single : ∀ colour others, (p = 38 ∨ p = 48) → rest ≠ 5 :: colour :: others) :
    ofParams (p :: rest) = (ofParam p).toList ++ ofParams rest := by
  rw [ofParams]
  · rintro colour others rfl rfl
    exact single colour others (.inl rfl) rfl
  · rintro colour others rfl rfl
    exact single colour others (.inr rfl) rfl

/-- A list that does not end within `38;5;n` or `48;5;n`. -/
inductive Whole : List Nat → Prop
  | nil : Whole []
  | single {p : Nat} {rest : List Nat} (text : p ≠ 38) (ground : p ≠ 48) :
      Whole rest → Whole (p :: rest)
  | indexed {kind colour : Nat} {rest : List Nat}
      (extended : kind = 38 ∨ kind = 48) :
      Whole rest → Whole (kind :: 5 :: colour :: rest)

theorem Whole.of_forall {params : List Nat}
    (others : ∀ p ∈ params, p ≠ 38 ∧ p ≠ 48) : Whole params := by
  induction params with
  | nil => exact .nil
  | cons p rest ih =>
      obtain ⟨text, ground⟩ := others p List.mem_cons_self
      exact .single text ground
        (ih fun other member => others other (List.mem_cons_of_mem p member))

theorem ofParams_append {first : List Nat} (whole : Whole first)
    (second : List Nat) :
    ofParams (first ++ second) = ofParams first ++ ofParams second := by
  induction whole with
  | nil => rfl
  | @single p rest text ground whole ih =>
      have plain : ¬ (p = 38 ∨ p = 48) := not_or.mpr ⟨text, ground⟩
      rw [List.cons_append, ofParams_cons (fun _ _ kind => absurd kind plain),
        ofParams_cons (fun _ _ kind => absurd kind plain), ih,
        List.append_assoc]
  | indexed extended whole ih =>
      rcases extended with rfl | rfl
      · exact congrArg (List.cons _) ih
      · exact congrArg (List.cons _) ih

/-- The 38 of a group that is no `38;5;n` sets nothing. -/
theorem ofParams_extended {kind p : Nat} (extended : kind = 38 ∨ kind = 48)
    (other : p ≠ 5) (rest : List Nat) :
    ofParams (kind :: p :: rest) = ofParams (p :: rest) := by
  have none : ofParam kind = none := by
    rcases extended with rfl | rfl
    · rfl
    · rfl
  rw [ofParams_cons, none]
  · rfl
  · intro colour others _ same
    exact other (List.cons.inj same).1

end Setting

def counted (params : Nat → Nat) (count : Nat) : List Nat :=
  (List.range count).map params

theorem drop_counted {params : Nat → Nat} {count i : Nat} (inside : i < count) :
    (counted params count).drop i =
      params i :: (counted params count).drop (i + 1) := by
  rw [List.drop_eq_getElem_cons (by simpa [counted] using inside)]
  simp [counted]

theorem Term.sgrFrom_eq (params : Nat → Nat) {count fuel i : Nat} (pen : Pen)
    (enough : count ≤ i + fuel) :
    sgrFrom params count fuel i pen =
      (Setting.ofParams ((counted params count).drop i)).foldl Setting.apply
        pen := by
  induction fuel generalizing i pen with
  | zero =>
      have passed : (counted params count).length ≤ i := by
        simpa [counted] using enough
      rw [List.drop_eq_nil_of_le passed]
      rfl
  | succ fuel ih =>
      rw [sgrFrom]
      by_cases inside : i < count
      · have below : count ≤ (sgrStep params count i pen).2 + fuel := by
          unfold sgrStep
          split
          · dsimp only
            omega
          · dsimp only
            omega
        rw [if_pos inside, ih _ below, drop_counted inside]
        unfold sgrStep
        by_cases extended : (params i = 38 ∨ params i = 48) ∧ i + 2 < count ∧
            params (i + 1) = 5
        · obtain ⟨kind, room, indexed⟩ := extended
          have next : i + 1 < count := by omega
          rw [if_pos ⟨kind, room, indexed⟩, drop_counted next,
            drop_counted room, indexed]
          rcases kind with text | ground
          · rw [text]
            rfl
          · rw [ground]
            rfl
        · have single : ∀ colour others, (params i = 38 ∨ params i = 48) →
              (counted params count).drop (i + 1) ≠ 5 :: colour :: others := by
            intro colour others kind same
            have length := congrArg List.length same
            have room : i + 2 < count := by
              simp [counted] at length
              omega
            rw [drop_counted (by omega)] at same
            exact extended ⟨kind, room, (List.cons.inj same).1⟩
          rw [if_neg extended, Setting.ofParams_cons single, List.foldl_append,
            Setting.foldl_ofParam]
      · have passed : (counted params count).length ≤ i := by
          simpa [counted] using inside
        rw [if_neg inside, List.drop_eq_nil_of_le passed]
        rfl

end Pspssh.Terminal
