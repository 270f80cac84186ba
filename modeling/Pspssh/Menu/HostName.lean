import Pspssh.Hosts.Entry

namespace Pspssh.Menu

open Pspssh.Data Pspssh.Hosts

/-! The name that the editor gives to a host the user left without one. -/

/-- The loop of `name_from_address`: the bytes it copies, with `room` of them
to go at most. -/
def copyName (numeric : Prop) [Decidable numeric] :
    Nat → List UInt8 → List UInt8
  | 0, _ => []
  | _, [] => []
  | room + 1, ch :: rest =>
      if ¬ numeric ∧ ch = 0x2e then [] else ch :: copyName numeric room rest

theorem copyName_length (numeric : Prop) [Decidable numeric] (room : Nat)
    (text : List UInt8) : (copyName numeric room text).length ≤ room := by
  fun_induction copyName with
  | case1 => exact Nat.zero_le _
  | case2 => exact Nat.zero_le _
  | case3 => exact Nat.zero_le _
  | case4 room ch rest _ ih => exact Nat.succ_le_succ ih

theorem mem_copyName {numeric : Prop} [Decidable numeric] {room : Nat}
    {text : List UInt8} {ch : UInt8} (member : ch ∈ copyName numeric room text) :
    ch ∈ text := by
  fun_induction copyName with
  | case1 => contradiction
  | case2 => contradiction
  | case3 => contradiction
  | case4 room first rest _ ih =>
      rcases List.mem_cons.mp member with rfl | later
      · exact List.mem_cons_self
      · exact List.mem_cons_of_mem first (ih later)

/-- `from[0] >= '0' && from[0] <= '9'` -/
def StartsWithDigit (text : List UInt8) : Prop :=
  IsDigit (text.headD 0)

instance : DecidablePred StartsWithDigit := fun _ =>
  inferInstanceAs (Decidable (_ ∧ _))

def nameFromAddress (form : HostEntry) : HostEntry :=
  { form with
    name :=
      { text := copyName (StartsWithDigit form.address.text) (hostNameLen - 1)
          form.address.text
        noNul := fun member => form.address.noNul (mem_copyName member)
        fits := Nat.lt_succ_of_le (copyName_length _ _ _) } }

/-! ## Labels and addresses -/

def firstLabel (address : List UInt8) : List UInt8 :=
  address.takeWhile (· ≠ 0x2e)

structure IsOctet (part : List UInt8) : Prop where
  nonempty : part ≠ []
  short : part.length ≤ 3
  digits : ∀ ch ∈ part, IsDigit ch
  small : decimalValue part ≤ 255

def IsDottedDecimal (address : List UInt8) : Prop :=
  ∃ a b c d, (IsOctet a ∧ IsOctet b ∧ IsOctet c ∧ IsOctet d) ∧
    address = a ++ 0x2e :: (b ++ 0x2e :: (c ++ 0x2e :: d))

namespace IsDottedDecimal

variable {address : List UInt8}

theorem length_le (dotted : IsDottedDecimal address) : address.length ≤ 15 := by
  obtain ⟨a, b, c, d, ⟨first, second, third, fourth⟩, rfl⟩ := dotted
  have := first.short
  have := second.short
  have := third.short
  have := fourth.short
  simp only [List.length_append, List.length_cons]
  omega

theorem startsWithDigit (dotted : IsDottedDecimal address) :
    StartsWithDigit address := by
  obtain ⟨a, b, c, d, ⟨first, _⟩, rfl⟩ := dotted
  cases a with
  | nil => exact absurd rfl first.nonempty
  | cons ch part => exact first.digits ch List.mem_cons_self

theorem chars (dotted : IsDottedDecimal address) :
    ∀ ch ∈ address, IsDigit ch ∨ ch = 0x2e := by
  obtain ⟨a, b, c, d, ⟨first, second, third, fourth⟩, rfl⟩ := dotted
  intro ch member
  simp only [List.mem_append, List.mem_cons] at member
  rcases member with inside | rfl | inside | rfl | inside | rfl | inside
  · exact .inl (first.digits ch inside)
  · exact .inr rfl
  · exact .inl (second.digits ch inside)
  · exact .inr rfl
  · exact .inl (third.digits ch inside)
  · exact .inr rfl
  · exact .inl (fourth.digits ch inside)

end IsDottedDecimal

theorem copyName_of_numeric {numeric : Prop} [Decidable numeric]
    (holds : numeric) (room : Nat) (text : List UInt8) :
    copyName numeric room text = text.take room := by
  fun_induction copyName with
  | case1 => rfl
  | case2 => simp
  | case3 room ch rest stops => exact absurd holds stops.1
  | case4 room ch rest _ ih => rw [List.take_succ_cons, ih]

theorem copyName_of_label {numeric : Prop} [Decidable numeric]
    (fails : ¬ numeric) (room : Nat) (text : List UInt8) :
    copyName numeric room text = (firstLabel text).take room := by
  fun_induction copyName with
  | case1 => simp
  | case2 => simp [firstLabel]
  | case3 room ch rest stops => simp [firstLabel, stops.2]
  | case4 room ch rest goes ih =>
      have other : ch ≠ 0x2e := fun dot => goes ⟨fails, dot⟩
      have label : firstLabel (ch :: rest) = ch :: firstLabel rest := by
        simp [firstLabel, other]
      rw [label, List.take_succ_cons, ih]

theorem nameFromAddress_name (form : HostEntry) :
    (nameFromAddress form).name.text =
      if StartsWithDigit form.address.text then form.address.text.take 23
      else (firstLabel form.address.text).take 23 := by
  change copyName _ 23 _ = _
  split
  · rename_i numeric
    exact copyName_of_numeric numeric 23 _
  · rename_i label
    exact copyName_of_label label 23 _

/-- The first bytes of an address are those of its first label if there is no
dot among them. -/
theorem take_firstLabel_iff (room : Nat) (text : List UInt8) :
    text.take room = (firstLabel text).take room ↔ 0x2e ∉ text.take room := by
  induction room generalizing text with
  | zero => simp
  | succ room ih =>
      cases text with
      | nil => simp [firstLabel]
      | cons ch rest =>
          by_cases dot : ch = 0x2e
          · subst dot
            simp [firstLabel]
          · have label : firstLabel (ch :: rest) = ch :: firstLabel rest := by
              simp [firstLabel, dot]
            rw [label, List.take_succ_cons, List.take_succ_cons, List.cons_inj_right,
              ih rest, List.mem_cons, not_or]
            exact ⟨fun away => ⟨Ne.symm dot, away⟩, And.right⟩

/-- What the documentation promises of the name: the first label, cut to the
size of the field, and the whole of an address that is in numbers. -/
structure NamedAsDocumented (address name : List UInt8) : Prop where
  label : address ≠ [] → address.head? ≠ some 0x2e → ¬ IsDottedDecimal address →
    name ≠ [] ∧ name = (firstLabel address).take 23
  whole : IsDottedDecimal address → name = address

/-- The name is the documented one exactly if the address does not start with a
digit, or is a dotted decimal one, or has no dot in its first 23 bytes. -/
theorem named_after_label_iff (form : HostEntry) :
    NamedAsDocumented form.address.text (nameFromAddress form).name.text ↔
      (StartsWithDigit form.address.text →
        IsDottedDecimal form.address.text ∨
          0x2e ∉ form.address.text.take 23) := by
  rw [nameFromAddress_name]
  generalize form.address.text = address
  have label_ne_nil (some_byte : address ≠ []) (start : address.head? ≠ some 0x2e) :
      (firstLabel address).take 23 ≠ [] := by
    cases address with
    | nil => exact absurd rfl some_byte
    | cons ch rest =>
        have other : ch ≠ 0x2e := fun dot => start (congrArg some dot)
        simp [firstLabel, other]
  constructor
  · intro named numeric
    by_cases dotted : IsDottedDecimal address
    · exact .inl dotted
    · have some_byte : address ≠ [] := by
        rintro rfl
        exact absurd numeric (by decide)
      have start : address.head? ≠ some 0x2e := by
        intro dot
        obtain ⟨rest, rfl⟩ := List.head?_eq_some_iff.mp dot
        have digit : IsDigit 0x2e := numeric
        exact absurd digit (by decide)
      have same := (named.label some_byte start dotted).2
      rw [if_pos numeric] at same
      exact .inr ((take_firstLabel_iff 23 address).mp same)
  · intro plain
    constructor
    · intro some_byte start undotted
      have kept := label_ne_nil some_byte start
      split
      · rename_i numeric
        have away := (plain numeric).resolve_left undotted
        rw [(take_firstLabel_iff 23 address).mpr away]
        exact ⟨kept, rfl⟩
      · exact ⟨kept, rfl⟩
    · intro dotted
      have short := dotted.length_le
      rw [if_pos dotted.startsWithDigit]
      exact List.take_of_length_le (by omega)

/-- A host name that starts with a digit keeps its domain. -/
theorem digit_label_keeps_domain :
    let form := { hostsBlank with
      address :=
        { text := ascii "3com.example.org", noNul := by decide +kernel,
          fits := by decide +kernel } }
    form.address.text = ascii "3com.example.org" ∧
      ¬ IsDottedDecimal form.address.text ∧
      (nameFromAddress form).name.text = ascii "3com.example.org" ∧
      firstLabel form.address.text = ascii "3com" ∧
      ¬ NamedAsDocumented form.address.text
        (nameFromAddress form).name.text := by
  intro form
  have address : form.address.text = ascii "3com.example.org" := by
    decide +kernel
  have name : (nameFromAddress form).name.text = ascii "3com.example.org" := by
    decide +kernel
  have label : firstLabel (ascii "3com.example.org") = ascii "3com" := by
    decide +kernel
  have letter : 0x63 ∈ ascii "3com.example.org" := by decide +kernel
  rw [address, name]
  have undotted : ¬ IsDottedDecimal (ascii "3com.example.org") := fun dotted =>
    absurd (dotted.chars 0x63 letter) (by decide)
  refine ⟨rfl, undotted, rfl, label, fun named => ?_⟩
  have same := (named.label (by decide +kernel) (by decide +kernel) undotted).2
  exact absurd same (by decide +kernel)

end Pspssh.Menu
