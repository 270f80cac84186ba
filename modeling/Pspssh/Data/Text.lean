import Pspssh.Data.Decimal

namespace Pspssh.Data

/-! C strings, the `char` arrays that hold them, and the lines and fields of a
text. -/

def ascii (text : String) : List UInt8 :=
  text.toList.map fun ch => ch.toNat.toUInt8

/-- The bytes of a text that is not all ASCII. -/
def utf8 (text : String) : List UInt8 :=
  text.toUTF8.toList

/-- The bytes of a C string, up to its NUL. -/
@[ext] structure CString where
  text : List UInt8
  noNul : 0 ∉ text

/-- What a `char[size]` holds. -/
@[ext] structure Field (size : Nat) extends CString where
  fits : text.length < size

instance : DecidableEq CString := fun left right =>
  decidable_of_iff (left.text = right.text) CString.ext_iff.symm

instance {size : Nat} : DecidableEq (Field size) := fun left right =>
  decidable_of_iff (left.text = right.text) Field.ext_iff.symm

/-- The C string at the start of a buffer. -/
def cString (buffer : List UInt8) : CString where
  text := buffer.takeWhile (· ≠ 0)
  noNul := fun member => by simpa using List.mem_takeWhile_imp member

/-- A string copied into a `char[size]`, cut to fit: `snprintf` with `"%s"`. -/
def copyField (size : Nat) [NeZero size] (source : List UInt8) : Field size where
  text := (cString source).text.take (size - 1)
  noNul := fun member => (cString source).noNul (List.mem_of_mem_take member)
  fits := by
    have := NeZero.pos size
    rw [List.length_take]
    omega

def emptyField (size : Nat) [NeZero size] : Field size where
  text := []
  noNul := List.not_mem_nil
  fits := NeZero.pos size

/-- The text in front of the first `mark` and the text behind it: `strchr`. -/
def cutAt (mark : UInt8) : List UInt8 → Option (List UInt8 × List UInt8)
  | [] => none
  | ch :: rest =>
      if ch = mark then some ([], rest)
      else (cutAt mark rest).map fun halves => (ch :: halves.1, halves.2)

/-- The fields of a line between tabs, cut at the first `count` tabs only. -/
def split (count : Nat) (line : List UInt8) : List (List UInt8) :=
  match count with
  | 0 => [line]
  | count + 1 =>
      match cutAt 0x09 line with
      | none => [line]
      | some (field, rest) => field :: split count rest

def IsBreak (ch : UInt8) : Prop :=
  ch = 0x0a ∨ ch = 0x0d

instance : DecidablePred IsBreak := fun _ =>
  inferInstanceAs (Decidable (_ ∨ _))

/-- A tab or a line break: `strpbrk` with `"\t\r\n"`. -/
def IsSeparator (ch : UInt8) : Prop :=
  ch = 0x09 ∨ ch = 0x0d ∨ ch = 0x0a

instance : DecidablePred IsSeparator := fun _ =>
  inferInstanceAs (Decidable (_ ∨ _ ∨ _))

def Plain (text : List UInt8) : Prop :=
  ∀ ch ∈ text, ¬ IsSeparator ch

instance (text : List UInt8) : Decidable (Plain text) :=
  inferInstanceAs (Decidable (∀ _ ∈ text, _))

/-- The lines of a text. A run of line breaks ends one line. -/
def lines (text : List UInt8) : List (List UInt8) :=
  match text with
  | [] => []
  | ch :: rest =>
      (ch :: rest).takeWhile (¬ IsBreak ·) ::
        lines (((ch :: rest).dropWhile (¬ IsBreak ·)).dropWhile (IsBreak ·))
termination_by text.length
decreasing_by
  by_cases ends : IsBreak ch
  · rw [List.dropWhile_cons_of_neg (by simpa using ends),
      List.dropWhile_cons_of_pos (by simpa using ends)]
    exact Nat.lt_succ_of_le (List.length_dropWhile_le _ _)
  · rw [List.dropWhile_cons_of_pos (by simpa using ends)]
    exact Nat.lt_succ_of_le
      ((List.length_dropWhile_le _ _).trans (List.length_dropWhile_le _ _))

/-- `snprintf` of one record after another into a `char[size]`, given up as
soon as one does not fit. -/
def gather (size : Nat) (records : List (List UInt8)) : Option (List UInt8) :=
  records.foldlM (fun text record =>
    if record.length = 0 ∨ size ≤ text.length + record.length then none
    else some (text ++ record)) []

theorem cString_text {text : List UInt8} (noNul : 0 ∉ text) :
    (cString text).text = text := by
  refine List.takeWhile_eq_self_iff.mpr fun ch member => decide_eq_true ?_
  rintro rfl
  exact noNul member

theorem copyField_text {size : Nat} [NeZero size] {source : List UInt8}
    (noNul : 0 ∉ source) (short : source.length < size) :
    (copyField size source).text = source := by
  change (cString source).text.take (size - 1) = source
  rw [cString_text noNul, List.take_of_length_le (by omega)]

theorem copyField_text_iff {size : Nat} [NeZero size] {source : List UInt8}
    (noNul : 0 ∉ source) :
    (copyField size source).text = source ↔ source.length < size := by
  constructor
  · intro same
    have fits := (copyField size source).fits
    rwa [same] at fits
  · exact copyField_text noNul

theorem cString_append {text rest : List UInt8} (noNul : 0 ∉ text)
    (ended : ∀ ch ∈ rest.head?, ch = 0) : (cString (text ++ rest)).text = text := by
  have whole : ∀ ch ∈ text, decide (ch ≠ 0) = true := by
    intro ch member
    refine decide_eq_true ?_
    rintro rfl
    exact noNul member
  change (text ++ rest).takeWhile (· ≠ 0) = text
  rw [List.takeWhile_append_of_pos whole]
  cases rest with
  | nil => exact List.append_nil text
  | cons ch rest =>
      obtain rfl := ended ch rfl
      rw [List.takeWhile_cons_of_neg (by decide), List.append_nil]

theorem cString_cString (source : List UInt8) :
    (cString (cString source).text).text = (cString source).text :=
  cString_text (cString source).noNul

/-- A text is copied as it is exactly if it fits and no NUL cuts it short. -/
theorem copyField_text_eq_iff {size : Nat} [NeZero size] {source : List UInt8} :
    (copyField size source).text = source ↔ 0 ∉ source ∧ source.length < size := by
  constructor
  · intro same
    have noNul : 0 ∉ source := same ▸ (copyField size source).noNul
    exact ⟨noNul, (copyField_text_iff noNul).mp same⟩
  · intro kept
    exact copyField_text kept.1 kept.2

theorem mem_copyField {size : Nat} [NeZero size] {source : List UInt8}
    {ch : UInt8} (member : ch ∈ (copyField size source).text) : ch ∈ source :=
  (List.takeWhile_sublist _).subset (List.mem_of_mem_take member)

theorem copyField_prefix {size : Nat} [NeZero size] (source : List UInt8) :
    (copyField size source).text <+: source :=
  (List.take_prefix _ _).trans (List.takeWhile_prefix _)

theorem head?_of_copyField {size : Nat} [NeZero size] {source : List UInt8}
    {ch : UInt8} (first : (copyField size source).text.head? = some ch) :
    source.head? = some ch := by
  obtain ⟨rest, same⟩ : (copyField size source).text <+: source :=
    copyField_prefix source
  rw [← same, List.head?_append, first, Option.some_or]

@[simp] theorem copyField_self {size : Nat} [NeZero size] (field : Field size) :
    copyField size field.text = field :=
  Field.ext (copyField_text field.noNul field.fits)

theorem Plain.no_tab {text : List UInt8} (plain : Plain text) :
    0x09 ∉ text :=
  fun member => plain _ member (.inl rfl)

theorem Plain.unbroken {text : List UInt8} (plain : Plain text) :
    ∀ ch ∈ text, ¬ IsBreak ch :=
  fun ch member ends => plain ch member (.inr ends.symm)

theorem not_digit_of_separator {ch : UInt8} (separates : IsSeparator ch) :
    ¬ (ch = 0x2d ∨ IsDigit ch) := by
  rcases separates with rfl | rfl | rfl <;> decide

theorem plain_intText (value : Int32) : Plain (intText value) :=
  fun _ member separates => not_digit_of_separator separates (mem_intText member)

theorem intText_noNul (value : Int32) : 0 ∉ intText value :=
  fun member => absurd (mem_intText member) (by decide)

/-! ## Cutting at a byte -/

theorem cutAt_eq_some_iff {mark : UInt8} {text front rest : List UInt8} :
    cutAt mark text = some (front, rest) ↔
      text = front ++ mark :: rest ∧ mark ∉ front := by
  induction text generalizing front with
  | nil => simp [cutAt]
  | cons ch text ih =>
      by_cases here : ch = mark
      · cases front with
        | nil => simp [cutAt, here]
        | cons first front =>
            simp only [cutAt, here, if_true, Option.some.injEq, Prod.mk.injEq,
              List.nil_eq, reduceCtorEq, false_and, false_iff, not_and]
            intro same
            have : mark = first := by simpa using congrArg List.head? same
            simp [this]
      · cases front with
        | nil => simp [cutAt, here]
        | cons first front =>
            simp only [cutAt, here, if_false, Option.map_eq_some_iff]
            grind

theorem cutAt_append {mark : UInt8} {front : List UInt8} (absent : mark ∉ front)
    (rest : List UInt8) : cutAt mark (front ++ mark :: rest) = some (front, rest) :=
  cutAt_eq_some_iff.mpr ⟨rfl, absent⟩

theorem cutAt_eq_none {mark : UInt8} {text : List UInt8} (absent : mark ∉ text) :
    cutAt mark text = none := by
  cases found : cutAt mark text with
  | none => rfl
  | some halves =>
      have present := (cutAt_eq_some_iff.mp found).1
      exact absurd (by rw [present]; simp) absent

/-- A NUL in front of the mark hides it. -/
theorem cutAt_cString {mark : UInt8} (notNul : mark ≠ 0) (text : List UInt8) :
    cutAt mark (cString text).text =
      (cutAt mark text).bind fun halves =>
        if 0 ∈ halves.1 then none
        else some (halves.1, (cString halves.2).text) := by
  change cutAt mark (text.takeWhile (· ≠ 0)) = _
  induction text with
  | nil => rfl
  | cons ch text ih =>
      by_cases nul : ch = 0
      · subst nul
        rw [List.takeWhile_cons_of_neg (by decide), cutAt, cutAt,
          if_neg notNul.symm]
        cases cutAt mark text with
        | none => rfl
        | some halves => simp
      · rw [List.takeWhile_cons_of_pos (by simpa using nul), cutAt, cutAt, ih]
        by_cases here : ch = mark
        · rw [if_pos here, if_pos here]
          rfl
        · rw [if_neg here, if_neg here]
          cases cutAt mark text with
          | none => rfl
          | some halves =>
              by_cases hidden : 0 ∈ halves.1
              · simp [hidden]
              · simp [hidden, Ne.symm nul]

theorem splitOn_of_cutAt {mark : UInt8} {text front rest : List UInt8}
    (cut : cutAt mark text = some (front, rest)) :
    text.splitOn mark = front :: rest.splitOn mark := by
  obtain ⟨rfl, absent⟩ := cutAt_eq_some_iff.mp cut
  exact List.splitOn_append_cons_self_of_not_mem absent rest

theorem splitOn_of_uncut {mark : UInt8} {text : List UInt8}
    (uncut : cutAt mark text = none) : text.splitOn mark = [text] := by
  refine List.splitOn_eq_singleton fun member => ?_
  obtain ⟨front, rest, rfl, absent⟩ := List.eq_append_cons_of_mem member
  rw [cutAt_append absent] at uncut
  contradiction

theorem split_append {field : List UInt8} (whole : 0x09 ∉ field) (count : Nat)
    (rest : List UInt8) :
    split (count + 1) (field ++ 0x09 :: rest) = field :: split count rest := by
  rw [split, cutAt_append whole]

theorem split_last {field : List UInt8} (whole : 0x09 ∉ field) (count : Nat) :
    split count field = [field] := by
  cases count with
  | zero => rfl
  | succ count => rw [split, cutAt_eq_none whole]

theorem split_cons {ch : UInt8} (within : ch ≠ 0x09) (count : Nat)
    (line : List UInt8) :
    split count (ch :: line) = (split count line).modifyHead (ch :: ·) := by
  cases count with
  | zero => rfl
  | succ count =>
      rw [split, split, cutAt, if_neg within]
      cases cutAt 0x09 line with
      | none => rfl
      | some halves => rfl

theorem split_ne_nil (count : Nat) (line : List UInt8) : split count line ≠ [] := by
  cases count with
  | zero => exact List.cons_ne_nil _ _
  | succ count =>
      rw [split]
      cases cutAt 0x09 line with
      | none => exact List.cons_ne_nil _ _
      | some halves => exact List.cons_ne_nil _ _

theorem mem_split {count : Nat} {line field : List UInt8}
    (member : field ∈ split count line) : ∀ ch ∈ field, ch ∈ line := by
  induction count generalizing line with
  | zero =>
      rw [split, List.mem_singleton] at member
      exact fun ch inside => member ▸ inside
  | succ count ih =>
      rw [split] at member
      cases found : cutAt 0x09 line with
      | none =>
          rw [found, List.mem_singleton] at member
          exact fun ch inside => member ▸ inside
      | some halves =>
          rw [found] at member
          obtain ⟨rfl, _⟩ := cutAt_eq_some_iff.mp found
          intro ch inside
          rcases List.mem_cons.mp member with rfl | later
          · exact List.mem_append_left _ inside
          · exact List.mem_append_right _
              (List.mem_cons_of_mem _ (ih later ch inside))

/-- The cut fields are the ones between all tabs, with the last of them put
together again. -/
theorem split_eq_splitOn (count : Nat) (line : List UInt8) :
    split count line =
      match (line.splitOn 0x09).drop count with
      | [] => line.splitOn 0x09
      | others => (line.splitOn 0x09).take count ++ [[0x09].intercalate others] := by
  induction count generalizing line with
  | zero =>
      obtain ⟨field, others, fields⟩ :=
        List.exists_cons_of_ne_nil (List.splitOn_ne_nil 0x09 line)
      have joined : [0x09].intercalate (line.splitOn 0x09) = line :=
        List.intercalate_splitOn 0x09
      rw [fields] at joined
      rw [split, List.drop_zero, fields]
      simp [joined]
  | succ count ih =>
      rw [split]
      cases cut : cutAt 0x09 line with
      | none => simp [splitOn_of_uncut cut]
      | some halves =>
          rw [splitOn_of_cutAt cut, List.drop_succ_cons, List.take_succ_cons]
          dsimp only
          rw [ih]
          cases (halves.2.splitOn 0x09).drop count with
          | nil => rfl
          | cons field others => rfl

/-- More text behind a line leaves its fields alone but for the last. -/
theorem split_append_text {count : Nat} {line last : List UInt8}
    {front : List (List UInt8)} (cut : split count line = front ++ [last])
    (more : List UInt8) :
    ∃ others, others ≠ [] ∧ split count (line ++ more) = front ++ others := by
  induction count generalizing line front with
  | zero =>
      obtain rfl : front = [] := by
        simpa [split] using congrArg List.length cut
      exact ⟨split 0 (line ++ more), split_ne_nil _ _, rfl⟩
  | succ count ih =>
      rw [split] at cut
      cases found : cutAt 0x09 line with
      | none =>
          rw [found] at cut
          obtain rfl : front = [] := by simpa using congrArg List.length cut
          exact ⟨split (count + 1) (line ++ more), split_ne_nil _ _, rfl⟩
      | some halves =>
          obtain ⟨field, rest⟩ := halves
          rw [found] at cut
          obtain ⟨rfl, absent⟩ := cutAt_eq_some_iff.mp found
          cases front with
          | nil =>
              have none_left := (List.cons.inj cut).2
              exact absurd none_left (split_ne_nil count rest)
          | cons first front =>
              obtain ⟨rfl, inner⟩ := List.cons.inj cut
              obtain ⟨others, nonempty, longer⟩ := ih inner
              refine ⟨others, nonempty, ?_⟩
              rw [List.append_assoc, List.cons_append, split_append absent,
                longer, List.cons_append]

/-! ## Lines -/

theorem lines_line {line : List UInt8} (nonempty : line ≠ [])
    (whole : ∀ ch ∈ line, ¬ IsBreak ch) {rest : List UInt8}
    (next : ∀ ch ∈ rest.head?, ¬ IsBreak ch) :
    lines (line ++ 0x0a :: rest) = line :: lines rest := by
  obtain ⟨first, more, rfl⟩ := List.exists_cons_of_ne_nil nonempty
  have all : ∀ ch ∈ first :: more, (decide ¬ IsBreak ch) = true :=
    fun ch member => decide_eq_true (whole ch member)
  have resumed : rest.dropWhile (IsBreak ·) = rest := by
    cases rest with
    | nil => rfl
    | cons ch rest =>
        exact List.dropWhile_cons_of_neg (by simpa using next ch rfl)
  rw [List.cons_append, lines, ← List.cons_append,
    List.takeWhile_append_of_pos all, List.dropWhile_append_of_pos all,
    List.takeWhile_cons_of_neg (by decide), List.append_nil,
    List.dropWhile_cons_of_neg (by decide),
    List.dropWhile_cons_of_pos (by decide), resumed]

theorem lines_records {records : List (List UInt8)}
    (whole : ∀ line ∈ records, line ≠ [] ∧ ∀ ch ∈ line, ¬ IsBreak ch) :
    lines (records.map (· ++ [0x0a])).flatten = records := by
  induction records with
  | nil => simp [lines]
  | cons line records ih =>
      obtain ⟨nonempty, unbroken⟩ := whole line List.mem_cons_self
      have others : ∀ other ∈ records, other ≠ [] ∧ ∀ ch ∈ other, ¬ IsBreak ch :=
        fun other member => whole other (List.mem_cons_of_mem line member)
      have next : ∀ ch ∈ (records.map (· ++ [0x0a])).flatten.head?,
          ¬ IsBreak ch := by
        cases records with
        | nil => simp
        | cons next records =>
            obtain ⟨nextNonempty, nextUnbroken⟩ := others next List.mem_cons_self
            obtain ⟨first, more, rfl⟩ := List.exists_cons_of_ne_nil nextNonempty
            simpa using nextUnbroken first List.mem_cons_self
      rw [List.map_cons, List.flatten_cons, List.append_assoc,
        List.singleton_append, lines_line nonempty unbroken next, ih others]

theorem mem_lines {text line : List UInt8} (member : line ∈ lines text) :
    ∀ ch ∈ line, ch ∈ text ∧ ¬ IsBreak ch := by
  induction text using lines.induct with
  | case1 => simp [lines] at member
  | case2 ch rest ih =>
      rw [lines, List.mem_cons] at member
      intro other inside
      cases member with
      | inl first =>
          subst first
          exact ⟨(List.takeWhile_sublist _).subset inside,
            by simpa using List.mem_takeWhile_imp inside⟩
      | inr later =>
          obtain ⟨found, unbroken⟩ := ih later other inside
          exact ⟨(List.dropWhile_sublist _).subset
            ((List.dropWhile_sublist _).subset found), unbroken⟩

theorem lines_of_ne_nil {text : List UInt8} (nonempty : text ≠ []) :
    lines text = text.takeWhile (¬ IsBreak ·) ::
      lines ((text.dropWhile (¬ IsBreak ·)).dropWhile (IsBreak ·)) := by
  obtain ⟨ch, rest, rfl⟩ := List.exists_cons_of_ne_nil nonempty
  rw [lines]

theorem cut_line {text : List UInt8} (nonempty : text ≠ []) :
    ∃ line breaks more, text = line ++ (breaks ++ more) ∧
      (∀ ch ∈ line, ¬ IsBreak ch) ∧ (∀ ch ∈ breaks, IsBreak ch) ∧
      (∀ ch ∈ more.head?, ¬ IsBreak ch) ∧ (breaks = [] → more = []) ∧
      lines text = line :: lines more := by
  refine ⟨_, (text.dropWhile (¬ IsBreak ·)).takeWhile (IsBreak ·), _,
    ?_, ?_, ?_, ?_, ?_, lines_of_ne_nil nonempty⟩
  · rw [List.takeWhile_append_dropWhile, List.takeWhile_append_dropWhile]
  · intro ch member
    simpa using List.mem_takeWhile_imp member
  · intro ch member
    simpa using List.mem_takeWhile_imp member
  · intro ch first
    have stops := List.head?_dropWhile_not (IsBreak ·)
      (text.dropWhile (¬ IsBreak ·))
    rw [first] at stops
    simpa using stops
  · intro unbroken
    cases tail : text.dropWhile (¬ IsBreak ·) with
    | nil => rfl
    | cons ch rest =>
        have stops := List.head?_dropWhile_not (¬ IsBreak ·) text
        rw [tail] at stops
        have ends : IsBreak ch := by simpa using stops
        rw [tail, List.takeWhile_cons_of_pos (by simpa using ends)] at unbroken
        exact absurd unbroken (List.cons_ne_nil _ _)

theorem filterMap_breaks {β : Type} {read : List UInt8 → Option β}
    (skips : read [] = none) {breaks : List UInt8}
    (broken : ∀ ch ∈ breaks, IsBreak ch) (more : List UInt8) :
    ((breaks ++ more).splitOnP (IsBreak ·)).filterMap read =
      (more.splitOnP (IsBreak ·)).filterMap read := by
  induction breaks with
  | nil => rfl
  | cons mark breaks ih =>
      have ends : decide (IsBreak mark) = true :=
        decide_eq_true (broken mark List.mem_cons_self)
      rw [List.cons_append, List.splitOnP_cons_eq_if_modifyHead, if_pos ends,
        List.filterMap_cons_none skips,
        ih fun ch member => broken ch (List.mem_cons_of_mem mark member)]

/-- A reader that skips empty lines may have the text cut at every break. -/
theorem filterMap_lines {β : Type} {read : List UInt8 → Option β}
    (skips : read [] = none) (text : List UInt8) :
    (lines text).filterMap read =
      (text.splitOnP (IsBreak ·)).filterMap read := by
  induction size : text.length using Nat.strong_induction_on
    generalizing text with
  | _ length ih =>
      subst size
      rcases eq_or_ne text [] with rfl | nonempty
      · simp [lines, skips]
      · obtain ⟨line, breaks, more, rfl, unbroken, broken, _, last, cut⟩ :=
          cut_line nonempty
        have whole : ∀ ch ∈ line, decide (IsBreak ch) = false :=
          fun ch member => decide_eq_false (unbroken ch member)
        cases breaks with
        | nil =>
            obtain rfl := last rfl
            rw [cut, List.nil_append, List.append_nil,
              List.splitOnP_eq_singleton whole]
            simp [lines]
        | cons mark breaks =>
            have ends : decide (IsBreak mark) = true :=
              decide_eq_true (broken mark List.mem_cons_self)
            have shorter :
                more.length < (line ++ (mark :: breaks ++ more)).length := by
              simp only [List.length_append, List.length_cons]
              omega
            rw [cut, List.cons_append,
              List.splitOnP_append_cons_of_forall_mem whole mark ends,
              List.filterMap_cons, List.filterMap_cons,
              filterMap_breaks skips (fun ch member =>
                broken ch (List.mem_cons_of_mem mark member)) more,
              ih more.length shorter more rfl]

/-- More text adds lines to those of a text, and may go on in its last one. -/
theorem lines_append (text more : List UInt8) :
    ∃ common last rest, lines text = common ++ Option.toList last ∧
      lines (text ++ more) = common ++ rest ∧
      ∀ line ∈ last, ∃ others,
        rest = (line ++ more.takeWhile (¬ IsBreak ·)) :: others := by
  induction text using lines.induct with
  | case1 => exact ⟨[], none, lines more, by simp [lines], rfl, by simp⟩
  | case2 ch text ih =>
      have here := lines_of_ne_nil (List.cons_ne_nil ch text)
      have longer := lines_of_ne_nil
        (List.append_ne_nil_of_left_ne_nil (List.cons_ne_nil ch text) more)
      rw [here, longer]
      generalize ch :: text = line at ih
      rw [List.takeWhile_append, List.dropWhile_append]
      have parts : line.takeWhile (¬ IsBreak ·) ++ line.dropWhile (¬ IsBreak ·) =
          line := List.takeWhile_append_dropWhile
      cases ended : line.dropWhile (¬ IsBreak ·) with
      | nil =>
          -- the text stops within its first line
          rw [ended, List.append_nil] at parts
          rw [parts, if_pos rfl]
          exact ⟨[], some line, _, by simp [lines], rfl, by simp⟩
      | cons mark tail =>
          have shorter : (line.takeWhile (¬ IsBreak ·)).length ≠ line.length := by
            intro same
            have length := congrArg List.length parts
            rw [List.length_append, same, ended, List.length_cons] at length
            omega
          rw [if_neg shorter, List.isEmpty_cons, if_neg (by decide),
            List.dropWhile_append, ← ended]
          cases next : (line.dropWhile (¬ IsBreak ·)).dropWhile (IsBreak ·) with
          | nil => exact ⟨[_], none, _, by simp [lines], rfl, by simp⟩
          | cons first rest =>
              obtain ⟨common, last, others, short, long, goes⟩ := ih
              rw [next] at short long
              exact ⟨_ :: common, last, others, congrArg _ short,
                congrArg _ long, goes⟩

theorem lines_prefix {text content line : List UInt8} (part : text <+: content)
    (member : line ∈ lines text) : ∃ whole ∈ lines content, line <+: whole := by
  obtain ⟨more, rfl⟩ := part
  obtain ⟨common, last, rest, short, long, goes⟩ := lines_append text more
  rw [short, List.mem_append, Option.mem_toList] at member
  rw [long]
  rcases member with inside | atEnd
  · exact ⟨line, List.mem_append_left _ inside, List.prefix_rfl⟩
  · obtain ⟨others, rfl⟩ := goes line atEnd
    exact ⟨_, List.mem_append_right _ List.mem_cons_self,
      List.prefix_append _ _⟩

/-- The lines in front of the first NUL are what is in front of it in the first
lines of the whole. -/
theorem lines_cString (content : List UInt8) :
    lines (cString content).text =
      ((lines content).take (lines (cString content).text).length).map
        fun line => (cString line).text := by
  have parts : (cString content).text ++ content.dropWhile (· ≠ 0) = content :=
    List.takeWhile_append_dropWhile
  obtain ⟨common, last, rest, short, long, goes⟩ :=
    lines_append (cString content).text (content.dropWhile (· ≠ 0))
  rw [parts] at long
  have uncut : ∀ line ∈ lines (cString content).text,
      (cString line).text = line := fun line member =>
    cString_text fun nul => (cString content).noNul (mem_lines member 0 nul).1
  have unchanged : common.map (fun line => (cString line).text) = common := by
    refine (List.map_congr_left fun line member => ?_).trans (List.map_id _)
    exact uncut line (short ▸ List.mem_append_left _ member)
  cases last with
  | none =>
      rw [Option.toList_none, List.append_nil] at short
      rw [short, long, List.take_left, unchanged]
  | some line =>
      obtain ⟨others, rfl⟩ := goes line rfl
      rw [Option.toList_some] at short
      have stops : (cString (line ++ (content.dropWhile (· ≠ 0)).takeWhile
          (¬ IsBreak ·))).text = line := by
        refine cString_append (fun nul => ?_) fun ch first => ?_
        · have inside : line ∈ lines (cString content).text := by simp [short]
          exact (cString content).noNul (mem_lines inside 0 nul).1
        · rw [List.head?_takeWhile] at first
          have begins := List.head?_dropWhile_not (· ≠ (0 : UInt8)) content
          rw [(Option.filter_eq_some_iff.mp first).1] at begins
          simpa using begins
      rw [short, long, List.length_append, List.length_singleton,
        List.take_length_add_append, List.take_succ_cons, List.take_zero,
        List.map_append, unchanged, List.map_singleton, stops]

/-! ## Gathering records -/

theorem gather_append {size : Nat} {records : List (List UInt8)}
    {text : List UInt8} (nonempty : ∀ record ∈ records, record ≠ [])
    (room : text.length + records.flatten.length < size) :
    records.foldlM (fun text record =>
        if record.length = 0 ∨ size ≤ text.length + record.length then none
        else some (text ++ record)) text =
      some (text ++ records.flatten) := by
  induction records generalizing text with
  | nil => simp
  | cons record records ih =>
      have written := List.length_pos_of_ne_nil
        (nonempty record List.mem_cons_self)
      rw [List.flatten_cons, List.length_append] at room
      have fits :
          ¬ (record.length = 0 ∨ size ≤ text.length + record.length) := by
        omega
      rw [List.foldlM_cons, if_neg fits, Option.bind_eq_bind, Option.bind_some,
        ih (fun other member => nonempty other (List.mem_cons_of_mem _ member))
          (by rw [List.length_append]; omega),
        List.flatten_cons, List.append_assoc]

theorem length_flatten_le {bound : Nat} {records : List (List UInt8)}
    (short : ∀ record ∈ records, record.length ≤ bound) :
    records.flatten.length ≤ records.length * bound := by
  rw [List.length_flatten, ← smul_eq_mul]
  refine (List.sum_le_card_nsmul _ bound ?_).trans_eq ?_
  · intro length member
    obtain ⟨record, found, rfl⟩ := List.mem_map.mp member
    exact short record found
  · rw [List.length_map]

theorem gather_eq {size bound : Nat} {records : List (List UInt8)}
    (nonempty : ∀ record ∈ records, record ≠ [])
    (short : ∀ record ∈ records, record.length ≤ bound)
    (room : records.length * bound < size) :
    gather size records = some records.flatten :=
  gather_append nonempty (by
    rw [List.length_nil, Nat.zero_add]
    exact (length_flatten_le short).trans_lt room)

end Pspssh.Data
