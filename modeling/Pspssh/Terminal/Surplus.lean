import Pspssh.Terminal.Sgr

namespace Pspssh.Terminal

open Pspssh.Data

/-! Sequences with more parameters than there is room for. -/

theorem joined_append {first : List (List UInt8)} (some_field : first ≠ [])
    (second : List (List UInt8)) :
    joined (first ++ second) =
      joined first ++ second.flatMap fun field => 0x3b :: field := by
  obtain ⟨field, rest, rfl⟩ := List.exists_cons_of_ne_nil some_field
  rw [List.cons_append, joined_cons, joined_cons, List.flatMap_append,
    List.append_assoc]

namespace Parameters

theorem seen_of_counted (body : List UInt8) :
    0 < (spelt body).count → (spelt body).seen = true := by
  induction body using List.reverseRecOn with
  | nil => exact fun counted => absurd counted (Nat.lt_irrefl 0)
  | append_singleton body ch ih =>
      have next : spelt (body ++ [ch]) = (spelt body).take ch :=
        List.foldl_concat ..
      rw [next, take]
      split
      · exact fun _ => rfl
      split
      · exact fun _ => rfl
      · exact ih

theorem spelt_decimals {fields : List (List UInt8)} (some_field : fields ≠ [])
    (few : fields.length ≤ maxParams) (decimals : Decimals fields) :
    (spelt (joined fields)).count = fields.length ∧
      ∀ i, (spelt (joined fields)).values i =
        fieldValue (fields[i]?.getD []) := by
  obtain ⟨field, rest, rfl⟩ := List.exists_cons_of_ne_nil some_field
  have read := spelt_joined few decimals.digits
  rwa [named_cons (decimals field List.mem_cons_self).1] at read

/-- The digits of the surplus fields end up in the last place. -/
theorem spelt_surplus {front : List (List UInt8)} {last : List UInt8}
    {rest : List (List UInt8)} (full : front.length + 1 = maxParams)
    (decimals : Decimals (front ++ [last] ++ rest)) :
    (spelt (joined (front ++ [last] ++ rest))).count = maxParams ∧
      ∀ i, (spelt (joined (front ++ [last] ++ rest))).values i =
        fieldValue ((front ++ [last ++ rest.flatten])[i]?.getD []) := by
  have some_field : front ++ [last] ≠ [] :=
    List.append_ne_nil_of_right_ne_nil front (List.cons_ne_nil last [])
  have kept : Decimals (front ++ [last]) := fun field member =>
    decimals field (List.mem_append_left rest member)
  have length : (front ++ [last]).length = maxParams := by
    rw [List.length_append, List.length_singleton, full]
  obtain ⟨count, values⟩ := spelt_decimals some_field length.le kept
  have ground : initial.state = .ground := rfl
  obtain ⟨marker, opened⟩ :=
    Term.termFeed_opened ground (isBody_joined kept.digits)
  have counted : max 1 (spelt (joined (front ++ [last]))).count =
      (front ++ [last]).length := by
    rw [count, length]
    decide
  have reading : Reading (front ++ [last])
      (initial.collecting (spelt (joined (front ++ [last]))) marker) :=
    ⟨rfl, counted, values⟩
  have read := reading.surplus full fun field member =>
    (decimals field (List.mem_append_right _ member)).2
  rw [← opened, ← termFeed_append, List.append_assoc,
    ← joined_append some_field] at read
  obtain ⟨values, count⟩ := spelt_eq (isBody_joined decimals.digits)
  rw [values, count]
  refine ⟨?_, read.params⟩
  have counted := read.counted
  rw [List.length_append, List.length_singleton, full] at counted
  have several : 1 < maxParams := by decide
  omega

end Parameters

/-- The fields as they are read: the ones that there is no room for continue
the last one that there is. -/
def merged (fields : List (List UInt8)) : List (List UInt8) :=
  fields.take (maxParams - 1) ++ [(fields.drop (maxParams - 1)).flatten]

namespace Term

theorem sameParams_collecting {term : Term} {given other : Parameters}
    (count : given.count = other.count) (seen : given.seen = other.seen)
    (first : given.values 0 = other.values 0)
    (second : given.values 1 = other.values 1) (marker mark : UInt8) :
    SameParams (term.collecting given marker) (term.collecting other mark) := by
  have read (given : Parameters) (marker : UInt8) :
      (term.collecting given marker).parameters = given := rfl
  constructor
  · rfl
  · rw [paramAt_zero, paramAt_zero, read, read]
    simp only [Parameters.value, count, seen, first]
  · intro fallback
    rw [paramAt_one, paramAt_one, read, read]
    simp only [Parameters.value, count, seen, second]
  · have same : given.valueOrZero 0 = other.valueOrZero 0 := by
      simp only [Parameters.valueOrZero, count, first]
    exact same
  · change given.count > 1 ↔ other.count > 1
    rw [count]

/-- All sequences but SGR depend on their first two parameters only. -/
theorem termFeed_csi_settled {term : Term} (safe : term.Safe)
    (ground : term.state = .ground) {body other : List UInt8}
    (whole : ∀ ch ∈ body, IsBody ch) (otherWhole : ∀ ch ∈ other, IsBody ch)
    {final : UInt8} (last : IsFinal final) (notSgr : final ≠ 0x6d)
    (count : (Parameters.spelt body).count = (Parameters.spelt other).count)
    (counted : 0 < (Parameters.spelt other).count)
    (first : (Parameters.spelt body).values 0 =
      (Parameters.spelt other).values 0)
    (second : (Parameters.spelt body).values 1 =
      (Parameters.spelt other).values 1) :
    (termFeed (csi body final) term).settled =
      (termFeed (csi other final) term).settled := by
  obtain ⟨marker, fed⟩ := termFeed_csi ground whole last
  obtain ⟨mark, otherFed⟩ := termFeed_csi ground otherWhole last
  have seen : (Parameters.spelt body).seen = (Parameters.spelt other).seen :=
    (Parameters.seen_of_counted body (counted.trans_eq count.symm)).trans
      (Parameters.seen_of_counted other counted).symm
  have dispatched := dispatchCsi_settled
    (safe.collecting ground whole marker)
    (safe.collecting ground otherWhole mark)
    (sameParams_collecting count seen first second marker mark) notSgr
  rw [fed, otherFed]
  exact congrArg (fun state : Term => { state with state := .ground })
    dispatched

/-- No command but SGR reads the last parameter, to which the digits of the
surplus ones are appended. -/
theorem termFeed_surplus {term : Term} (safe : term.Safe)
    (ground : term.state = .ground) {front rest : List (List UInt8)}
    {last : List UInt8} (full : front.length + 1 = maxParams)
    (decimals : Decimals (front ++ [last] ++ rest)) {final : UInt8}
    (ends : IsFinal final) (notSgr : final ≠ 0x6d) :
    (termFeed (csi (joined (front ++ [last] ++ rest)) final) term).settled =
      (termFeed (csi (joined (front ++ [last])) final) term).settled := by
  have width : (front ++ [last]).length = maxParams := by
    rw [List.length_append, List.length_singleton, full]
  have some_field : front ++ [last] ≠ [] :=
    List.append_ne_nil_of_right_ne_nil front (List.cons_ne_nil last [])
  have kept : Decimals (front ++ [last]) := fun field member =>
    decimals field (List.mem_append_left rest member)
  obtain ⟨count, values⟩ := Parameters.spelt_surplus full decimals
  obtain ⟨keptCount, keptValues⟩ :=
    Parameters.spelt_decimals some_field width.le kept
  have before (field : List UInt8) {i : Nat} (inside : i < 2) :
      (front ++ [field])[i]? = front[i]? :=
    List.getElem?_append_left (by
      have several : 2 < maxParams := by decide
      omega)
  have same {i : Nat} (inside : i < 2) :
      (Parameters.spelt (joined (front ++ [last] ++ rest))).values i =
        (Parameters.spelt (joined (front ++ [last]))).values i := by
    rw [values, keptValues, before _ inside, before _ inside]
  apply termFeed_csi_settled safe ground (isBody_joined decimals.digits)
    (isBody_joined kept.digits) ends notSgr
  · rw [count, keptCount, width]
  · rw [keptCount, width]
    decide
  · exact same (by decide)
  · exact same (by decide)

end Term

theorem exists_cut {fields : List (List UInt8)}
    (many : maxParams < fields.length) :
    ∃ front last rest, front.length + 1 = maxParams ∧
      fields = front ++ [last] ++ rest ∧
      fields.take maxParams = front ++ [last] ∧
      merged fields = front ++ [last ++ rest.flatten] := by
  have positive : 1 ≤ maxParams := by decide
  obtain ⟨last, rest, cut⟩ : ∃ last rest,
      fields.drop (maxParams - 1) = last :: rest :=
    List.exists_cons_of_length_pos (by rw [List.length_drop]; omega)
  have full : (fields.take (maxParams - 1)).length + 1 = maxParams := by
    rw [List.length_take]
    omega
  have split : fields = fields.take (maxParams - 1) ++ [last] ++ rest := by
    rw [List.append_assoc, List.singleton_append, ← cut, List.take_append_drop]
  refine ⟨fields.take (maxParams - 1), last, rest, full, split, ?_, ?_⟩
  · conv_lhs => rw [split]
    exact List.take_left' (by
      rw [List.length_append, List.length_singleton, full])
  · rw [merged, cut, List.flatten_cons]

/-- Surplus parameters are ignored exactly if the sequence is no SGR or its
eighth code, with their digits behind its own, sets what it sets alone. -/
theorem surplus_ignored_iff (c r : Int) (calls : List TermCall)
    (ground : (runCalls calls (termReset c r initial)).state = .ground)
    {fields : List (List UInt8)} (many : maxParams < fields.length)
    (decimals : Decimals fields) {final : UInt8} (last : IsFinal final) :
    let term := runCalls calls (termReset c r initial)
    let kept := fields.take maxParams
    (termFeed (csi (joined fields) final) term).settled =
        (termFeed (csi (joined kept) final) term).settled ↔
      final ≠ 0x6d ∨
        Setting.Agreed (Setting.ofParams ((merged fields).map fieldValue))
          (Setting.ofParams (kept.map fieldValue)) term.pen := by
  intro term kept
  have safe : term.Safe := (Term.Safe.fresh c r).runCalls calls
  obtain ⟨front, eighth, rest, full, split, keeps, merges⟩ := exists_cut many
  rw [show kept = front ++ [eighth] from keeps, merges]
  clear keeps merges kept many
  subst split
  by_cases sgr : final = 0x6d
  · subst sgr
    have keptDecimals : Decimals (front ++ [eighth]) := fun field member =>
      decimals field (List.mem_append_left rest member)
    have width (field : List UInt8) :
        (front ++ [field]).length = maxParams := by
      rw [List.length_append, List.length_singleton, full]
    have some_field (field : List UInt8) : front ++ [field] ≠ [] :=
      List.append_ne_nil_of_right_ne_nil front (List.cons_ne_nil field [])
    obtain ⟨count, values⟩ := Parameters.spelt_surplus full decimals
    obtain ⟨keptCount, keptValues⟩ := Parameters.spelt_decimals
      (some_field eighth) (width eighth).le keptDecimals
    rw [Term.termFeed_sgr safe ground (isBody_joined decimals.digits),
      Term.termFeed_sgr safe ground (isBody_joined keptDecimals.digits),
      Parameters.settings_eq (some_field _) (count.trans (width _).symm) values,
      Parameters.settings_eq (some_field _) keptCount keptValues,
      Term.withPen_inj, Setting.foldl_apply_eq_foldl_iff]
    exact ⟨.inr, fun agreed => agreed.resolve_left (absurd rfl)⟩
  · exact iff_of_true (Term.termFeed_surplus safe ground full decimals last sgr)
      (.inl sgr)

/-- A ninth parameter of a cursor movement. -/
theorem surplus_ignored_cursor :
    let term := runCalls [] (termReset 80 24 initial)
    (termFeed (csi (ascii "1;2;3;4;5;6;7;8;9") 0x48) term).settled =
      (termFeed (csi (ascii "1;2;3;4;5;6;7;8") 0x48) term).settled := by
  have decimals : Decimals [[0x31], [0x32], [0x33], [0x34], [0x35], [0x36],
      [0x37], [0x38], [0x39]] := by
    unfold Decimals
    decide +kernel
  exact (surplus_ignored_iff 80 24 [] rfl (by decide) decimals
    (by decide)).mpr (.inl (by decide))

/-- The eighth parameter 3 and the ninth 1 set the foreground 31. -/
theorem surplus_digit_turns_red :
    let term := runCalls [] (termReset 80 24 initial)
    let fields : List (List UInt8) := [[0x31], [0x31], [0x31], [0x31], [0x31],
      [0x31], [0x31], [0x33], [0x31]]
    term.state = .ground ∧ maxParams < fields.length ∧ Decimals fields ∧
      IsFinal 0x6d ∧
      (termFeed (csi (joined fields) 0x6d) term).settled ≠
        (termFeed (csi (joined (fields.take maxParams)) 0x6d)
          term).settled := by
  refine ⟨rfl, by decide, ?_, by decide, fun same => ?_⟩
  · unfold Decimals
    decide +kernel
  · have pens := congrArg Term.pen same
    exact absurd pens (by decide +kernel)

end Pspssh.Terminal
