import Pspssh.At3.Loop

namespace Pspssh.At3

open Pspssh.Data Pspssh.Data.Riff

/-! The file that is written is the one that was read, with a loop in front of its
sound. -/

def loopChunk (total rate : Nat) : Chunk where
  id := ascii "smpl"
  payload := (loopFields total rate).flatMap fun field => leBytes field.1 field.2

def looped (total rate : Nat) (chunks : List Chunk) : List Chunk :=
  chunks.flatMap fun chunk =>
    if chunk.id = ascii "data" then [loopChunk total rate, chunk] else [chunk]

def wordAt (start : Nat) (bytes : List UInt8) : Nat :=
  leValue ((bytes.drop start).take 4)

/-- The sample rate is that of the last format, and the number of samples that of
the last count. -/
structure Announced (chunks : List Chunk) (rate total : Nat) : Prop where
  rate : ((chunks.filter fun chunk => chunk.id = ascii "fmt ").getLast?).map
    (fun chunk => wordAt 4 chunk.payload) = some rate
  total : ((chunks.filter fun chunk => chunk.id = ascii "fact").getLast?).map
    (fun chunk => wordAt 0 chunk.payload) = some total

/-- A RIFF WAVE file that is as long as it says and made of whole chunks. -/
structure WellFormed (file : List UInt8) : Prop where
  riff : file.take 4 = ascii "RIFF"
  wave : (file.drop 8).take 4 = ascii "WAVE"
  size : wordAt 4 file + 8 = file.length
  whole : file.drop 12 = (chunks file).flatMap Chunk.bytes

/-! ## Words -/

theorem wordAt_lt (start : Nat) (bytes : List UInt8) :
    wordAt start bytes < 256 ^ 4 := by
  refine Nat.lt_of_lt_of_le (leValue_lt _) (Nat.pow_le_pow_right (by decide) ?_)
  exact List.length_take_le 4 _

theorem pack_ok {fields : List (Nat × Nat)} {packed : List UInt8}
    (packs : pack fields = .ok packed) :
    (packed = fields.flatMap fun field => leBytes field.1 field.2) ∧
      ∀ field ∈ fields, field.2 < 256 ^ field.1 := by
  unfold pack at packs
  cases found : structPack fields with
  | none =>
      rw [found] at packs
      cases packs
  | some bytes =>
      rw [found] at packs
      cases packs
      obtain ⟨fits, same⟩ := Option.ite_none_right_eq_some.mp found
      exact ⟨(Option.some_inj.mp same).symm, fits⟩

theorem pack_word {value : Nat} (fits : value < 256 ^ 4) :
    pack [(4, value)] = .ok (leBytes 4 value) := by
  have packs : structPack [(4, value)] = some (leBytes 4 value) := by
    rw [structPack, if_pos (by simpa using fits)]
    simp
  rw [pack, packs]
  rfl

theorem unpackWord_ok {bytes : List UInt8} {value : Nat}
    (unpacks : unpackWord bytes = .ok value) :
    bytes.length = 4 ∧ leValue bytes = value := by
  unfold unpackWord at unpacks
  split at unpacks
  · rename_i length
    exact ⟨length, Except.ok.inj unpacks⟩
  · cases unpacks

theorem loopChunk_length (total rate : Nat) :
    (loopChunk total rate).payload.length = 60 := by
  simp [loopChunk, loopFields]

theorem loopChunk_sound (total rate : Nat) : (loopChunk total rate).Sound :=
  ⟨rfl, by rw [loopChunk_length]; decide⟩

theorem loopChunk_fields {total rate : Nat} (fits : total < 256 ^ 4) :
    structUnpack (List.replicate 15 4) (loopChunk total rate).payload =
      [0, 0, 1000000000 / rate, 60, 0, 0, 0, 1, 0, 0, 0, 0, total - 1, 0, 0] := by
  have period : 1000000000 / rate < 256 ^ 4 :=
    Nat.lt_of_le_of_lt (Nat.div_le_self _ _) (by decide)
  have packs : structPack (loopFields total rate) =
      some (loopChunk total rate).payload := by
    refine if_pos fun field among => ?_
    simp only [loopFields, List.mem_append, List.mem_cons, List.not_mem_nil,
      or_false] at among
    rcases among with
      (rfl | rfl | rfl | rfl | rfl | rfl | rfl | rfl | rfl) |
      (rfl | rfl | rfl | rfl | rfl | rfl) <;> dsimp only <;> omega
  have read := structUnpack_of_pack packs []
  rw [List.append_nil] at read
  exact read

/-! ## The second loop -/

section Put

variable {total rate : Nat}

theorem smplChunk_ok {bytes : List UInt8} (made : smplChunk total rate = .ok bytes) :
    bytes = (loopChunk total rate).bytes := by
  unfold smplChunk at made
  split at made
  · cases made
  cases packs : pack (loopFields total rate) with
  | error problem =>
      rw [packs] at made
      cases made
  | ok body =>
      rw [packs] at made
      have body_same : body = (loopChunk total rate).payload := (pack_ok packs).1
      have small : body.length < 256 ^ 4 := by
        rw [body_same]
        exact (loopChunk_sound total rate).payload
      change (pack [(4, body.length)] >>= _) = _ at made
      rw [pack_word small, body_same] at made
      have same := Except.ok.inj made
      rw [← same, Chunk.bytes, loopChunk_length]
      exact (List.append_nil _).symm

/-- What is put behind the loop, or behind nothing. -/
theorem put_chunk {chunk : Chunk} (sound : chunk.Sound) (out : List UInt8) :
    (do
      let packed ← pack [(4, chunk.payload.length)]
      let out := out ++ (chunk.id ++ packed ++ chunk.payload)
      pure (if chunk.payload.length % 2 = 1 then out ++ [0] else out)) =
      Except.ok (out ++ chunk.bytes) := by
  rw [pack_word sound.payload]
  refine congrArg Except.ok ?_
  rw [Chunk.bytes, filling]
  split
  · rename_i odd
    rw [odd]
    simp only [List.append_assoc, List.replicate_one]
  · rename_i even
    rw [Nat.mod_two_ne_one.mp even, List.replicate_zero, List.append_nil]

theorem put_ok {chunk : Chunk} (sound : chunk.Sound) {out result : List UInt8}
    (puts : put total rate out chunk = .ok result) :
    result = out ++ (looped total rate [chunk]).flatMap Chunk.bytes := by
  unfold put at puts
  rw [looped, List.flatMap_singleton]
  split at puts
  · rename_i is_data
    rw [if_pos is_data]
    cases made : smplChunk total rate with
    | error problem =>
        rw [made] at puts
        cases puts
    | ok smpl =>
        rw [made] at puts
        have same := Except.ok.inj ((put_chunk sound (out ++ smpl)).symm.trans puts)
        rw [← same, smplChunk_ok made]
        simp only [List.flatMap_cons, List.flatMap_nil, List.append_nil,
          List.append_assoc]
  · rename_i other
    have same := Except.ok.inj ((put_chunk sound out).symm.trans puts)
    rw [if_neg other, ← same, List.flatMap_singleton]

theorem foldlM_put_ok {chunks : List Chunk} (sound : ∀ chunk ∈ chunks, chunk.Sound)
    {out result : List UInt8}
    (puts : chunks.foldlM (put total rate) out = .ok result) :
    result = out ++ (looped total rate chunks).flatMap Chunk.bytes := by
  induction chunks generalizing out with
  | nil => exact (Except.ok.inj puts).symm.trans (List.append_nil _).symm
  | cons chunk chunks ih =>
      obtain ⟨here, later⟩ := List.forall_mem_cons.mp sound
      rw [List.foldlM_cons] at puts
      cases first : put total rate out chunk with
      | error problem =>
          rw [first] at puts
          cases puts
      | ok middle =>
          rw [first] at puts
          rw [ih later puts, put_ok here first, List.append_assoc, looped, looped,
            looped, ← List.flatMap_append, ← List.flatMap_append,
            List.singleton_append]

theorem put_other {chunk : Chunk} (sound : chunk.Sound)
    (other : chunk.id ≠ ascii "data") (out : List UInt8) :
    put total rate out chunk = .ok (out ++ chunk.bytes) := by
  unfold put
  rw [if_neg other]
  exact put_chunk sound out

theorem foldlM_put_others {chunks : List Chunk} (sound : ∀ chunk ∈ chunks, chunk.Sound)
    (others : ∀ chunk ∈ chunks, chunk.id ≠ ascii "data") (out : List UInt8) :
    chunks.foldlM (put total rate) out = .ok (out ++ chunks.flatMap Chunk.bytes) := by
  induction chunks generalizing out with
  | nil => exact congrArg Except.ok (List.append_nil out).symm
  | cons chunk chunks ih =>
      obtain ⟨here, later⟩ := List.forall_mem_cons.mp sound
      obtain ⟨other, more⟩ := List.forall_mem_cons.mp others
      rw [List.foldlM_cons, put_other here other]
      refine (ih later more _).trans ?_
      rw [List.append_assoc, List.flatMap_cons]

end Put

/-! ## The first loop -/

theorem look_ok {start known : Known} {chunk : Chunk}
    (looks : look start chunk = .ok known) :
    known.rate = (if chunk.id = ascii "fmt " then some (wordAt 4 chunk.payload)
      else start.rate) ∧
    known.total = (if chunk.id = ascii "fact" then some (wordAt 0 chunk.payload)
      else start.total) ∧
    chunk.id ≠ ascii "smpl" := by
  unfold look at looks
  split at looks
  · rename_i fmt
    cases unpacks : unpackWord ((chunk.payload.drop 4).take 4) with
    | error problem =>
        rw [unpacks] at looks
        cases looks
    | ok rate =>
        rw [unpacks] at looks
        cases looks
        rw [fmt, if_pos rfl, if_neg (by decide), wordAt, (unpackWord_ok unpacks).2]
        exact ⟨rfl, rfl, by decide⟩
  rename_i not_fmt
  split at looks
  · rename_i fact
    cases unpacks : unpackWord (chunk.payload.take 4) with
    | error problem =>
        rw [unpacks] at looks
        cases looks
    | ok total =>
        rw [unpacks] at looks
        cases looks
        rw [fact, if_neg (by decide), if_pos rfl, wordAt, List.drop_zero,
          (unpackWord_ok unpacks).2]
        exact ⟨rfl, rfl, by decide⟩
  rename_i not_fact
  split at looks
  · cases looks
  · rename_i not_smpl
    cases looks
    rw [if_neg not_fmt, if_neg not_fact]
    exact ⟨rfl, rfl, not_smpl⟩

theorem foldlM_look_ok {chunks : List Chunk} {start known : Known}
    (looks : chunks.foldlM look start = .ok known) :
    known.rate = (((chunks.filter fun chunk => chunk.id = ascii "fmt ").getLast?).map
      fun chunk => wordAt 4 chunk.payload).or start.rate ∧
    known.total = (((chunks.filter fun chunk => chunk.id = ascii "fact").getLast?).map
      fun chunk => wordAt 0 chunk.payload).or start.total := by
  induction chunks generalizing start with
  | nil =>
      cases looks
      exact ⟨rfl, rfl⟩
  | cons chunk chunks ih =>
      rw [List.foldlM_cons] at looks
      cases first : look start chunk with
      | error problem =>
          rw [first] at looks
          cases looks
      | ok middle =>
          rw [first] at looks
          obtain ⟨rate, total⟩ := ih looks
          obtain ⟨here, there, _⟩ := look_ok first
          rw [rate, total, here, there]
          -- the last of more is the last of the rest, if there is one
          have last (kind : Chunk → Bool) (word : Chunk → Nat) (before : Option Nat) :
              (((chunks.filter kind).getLast?).map word).or
                  (if kind chunk = true then some (word chunk) else before) =
                ((((chunk :: chunks).filter kind).getLast?).map word).or before := by
            rw [List.filter_cons]
            split
            · rw [List.getLast?_cons]
              cases (chunks.filter kind).getLast? <;> rfl
            · rfl
          have fmt := last (fun chunk => chunk.id = ascii "fmt ")
            (fun chunk => wordAt 4 chunk.payload) start.rate
          have fact := last (fun chunk => chunk.id = ascii "fact")
            (fun chunk => wordAt 0 chunk.payload) start.total
          rw [← fmt, ← fact]
          simp only [decide_eq_true_eq, and_self]

/-- In a file with a loop the loop is found, unless there is no sound that it could
stand in front of. -/
theorem foldlM_look_looped {chunks : List Chunk} {start known : Known}
    (looks : chunks.foldlM look start = .ok known) (total rate : Nat) :
    (looped total rate chunks).foldlM look start =
      if ∃ chunk ∈ chunks, chunk.id = ascii "data" then .error .alreadyLooped
      else .ok known := by
  induction chunks generalizing start with
  | nil =>
      rw [if_neg (by rintro ⟨_, among, _⟩; cases among)]
      exact looks
  | cons chunk chunks ih =>
      rw [List.foldlM_cons] at looks
      cases first : look start chunk with
      | error problem =>
          rw [first] at looks
          cases looks
      | ok middle =>
          rw [first] at looks
          rw [looped, List.flatMap_cons]
          by_cases is_data : chunk.id = ascii "data"
          · rw [if_pos is_data, if_pos ⟨chunk, List.mem_cons_self, is_data⟩]
            rfl
          · rw [if_neg is_data, List.singleton_append, List.foldlM_cons, first]
            refine (ih looks).trans ?_
            have same : (∃ other ∈ chunk :: chunks, other.id = ascii "data") ↔
                ∃ other ∈ chunks, other.id = ascii "data" := by
              simp [is_data]
            simp only [same]

/-! ## The whole file -/

theorem chunks_sound (data : List UInt8) : ∀ chunk ∈ chunks data, chunk.Sound :=
  fun _ among => chunksFrom_sound among

theorem looped_sound (total rate : Nat) {chunks : List Chunk}
    (sound : ∀ chunk ∈ chunks, chunk.Sound) :
    ∀ chunk ∈ looped total rate chunks, chunk.Sound := by
  intro chunk among
  obtain ⟨other, there, among⟩ := List.mem_flatMap.mp among
  split at among
  · rcases List.mem_cons.mp among with rfl | among
    · exact loopChunk_sound total rate
    · rw [List.mem_singleton.mp among]
      exact sound other there
  · rw [List.mem_singleton.mp among]
    exact sound other there

theorem looped_others {total rate : Nat} {chunks : List Chunk}
    (others : ∀ chunk ∈ chunks, chunk.id ≠ ascii "data") :
    looped total rate chunks = chunks := by
  induction chunks with
  | nil => rfl
  | cons chunk chunks ih =>
      obtain ⟨other, more⟩ := List.forall_mem_cons.mp others
      rw [looped, List.flatMap_cons, if_neg other, List.singleton_append]
      exact congrArg _ (ih more)

def fileOf (chunks : List Chunk) : List UInt8 :=
  ascii "RIFF" ++ leBytes 4 (4 + (chunks.flatMap Chunk.bytes).length) ++ ascii "WAVE" ++
    chunks.flatMap Chunk.bytes

section Files

variable {listed : List Chunk}

theorem fileOf_length : (fileOf listed).length =
    12 + (listed.flatMap Chunk.bytes).length := by
  simp only [fileOf, List.length_append, leBytes_length]
  rfl

theorem fileOf_drop : (fileOf listed).drop 12 = listed.flatMap Chunk.bytes :=
  List.drop_left' (by simp [ascii])

theorem chunks_fileOf (sound : ∀ chunk ∈ listed, chunk.Sound) :
    chunks (fileOf listed) = listed := by
  rw [chunks, fileOf_drop, fileOf_length]
  refine chunksFrom_bytes sound ?_
  have := length_le_bytes sound
  omega

theorem fileOf_wellFormed (sound : ∀ chunk ∈ listed, chunk.Sound)
    (fits : 4 + (listed.flatMap Chunk.bytes).length < 256 ^ 4) :
    WellFormed (fileOf listed) where
  riff := rfl
  wave := by
    rw [fileOf, List.append_assoc, List.drop_left' (by simp [ascii])]
    rfl
  size := by
    have word : wordAt 4 (fileOf listed) = 4 + (listed.flatMap Chunk.bytes).length := by
      rw [wordAt, fileOf, List.append_assoc, List.append_assoc,
        List.drop_left' (by simp [ascii]), List.take_left' (leBytes_length _ _),
        leValue_leBytes fits]
    rw [word, fileOf_length]
    omega
  whole := by rw [fileOf_drop, chunks_fileOf sound]

end Files

theorem exists_head {data : List UInt8} (riff : data.take 4 = ascii "RIFF")
    (wave : (data.drop 8).take 4 = ascii "WAVE") :
    ∃ size, size.length = 4 ∧ data.take 12 = ascii "RIFF" ++ size ++ ascii "WAVE" := by
  refine ⟨(data.drop 4).take 4, ?_, ?_⟩
  · have length := congrArg List.length wave
    rw [List.length_take, List.length_drop] at length
    have four : (ascii "WAVE").length = 4 := rfl
    rw [List.length_take, List.length_drop]
    omega
  · rw [← riff, ← wave, show 12 = 4 + (4 + 4) from rfl, List.take_add, List.take_add,
      List.drop_drop, List.append_assoc]

/-- The size is put in last, in the place of the old one. -/
theorem sized {listed : List Chunk} {old : List UInt8} (four : old.length = 4)
    (fits : 4 + (listed.flatMap Chunk.bytes).length < 256 ^ 4) {out : List UInt8}
    (whole : out = ascii "RIFF" ++ old ++ ascii "WAVE" ++ listed.flatMap Chunk.bytes) :
    (do
      let size ← pack [(4, out.length - 8)]
      pure (out.take 4 ++ size ++ out.drop 8)) = Except.ok (fileOf listed) := by
  have length : out.length - 8 = 4 + (listed.flatMap Chunk.bytes).length := by
    rw [whole]
    simp only [List.length_append, four]
    have riff : (ascii "RIFF").length = 4 := rfl
    have wave : (ascii "WAVE").length = 4 := rfl
    omega
  have front : out.take 4 = ascii "RIFF" := by
    rw [whole, List.append_assoc, List.append_assoc]
    exact List.take_left' rfl
  have back : out.drop 8 = ascii "WAVE" ++ listed.flatMap Chunk.bytes := by
    rw [whole, List.append_assoc]
    refine List.drop_left' ?_
    rw [List.length_append, four]
    rfl
  rw [length, pack_word fits, front, back, fileOf, List.append_assoc _ (ascii "WAVE")]
  rfl

/-- What is written is the file of the chunks with the loop. -/
theorem addLoop_ok {data out : List UInt8} (written : addLoop data = .ok out) :
    ∃ rate total, (chunks data).foldlM look ⟨none, none⟩ = .ok ⟨some rate, some total⟩ ∧
      out = fileOf (looped total rate (chunks data)) ∧
      4 + ((looped total rate (chunks data)).flatMap Chunk.bytes).length < 256 ^ 4 := by
  unfold addLoop at written
  split at written
  · cases written
  rename_i riff
  obtain ⟨riff, wave⟩ := not_or.mp riff
  obtain ⟨old, four, head⟩ := exists_head (not_not.mp riff) (not_not.mp wave)
  cases looks : (chunks data).foldlM look ⟨none, none⟩ with
  | error problem =>
      rw [looks] at written
      cases written
  | ok known =>
      rw [looks] at written
      obtain ⟨_ | rate, _ | total⟩ := known
      · cases written
      · cases written
      · cases written
      change ((chunks data).foldlM (put total rate) (data.take 12) >>= _) = _ at written
      cases puts : (chunks data).foldlM (put total rate) (data.take 12) with
      | error problem =>
          rw [puts] at written
          cases written
      | ok body =>
          rw [puts] at written
          have whole := foldlM_put_ok (chunks_sound data) puts
          rw [head] at whole
          have fits : 4 +
            ((looped total rate (chunks data)).flatMap Chunk.bytes).length <
              256 ^ 4 := by
            change (pack [(4, body.length - 8)] >>= _) = _ at written
            cases packs : pack [(4, body.length - 8)] with
            | error problem =>
                rw [packs] at written
                cases written
            | ok size =>
                have fits : body.length - 8 < 256 ^ 4 :=
                  (pack_ok packs).2 _ (List.mem_singleton.mpr rfl)
                rw [whole] at fits
                simp only [List.length_append, four] at fits
                have riff : (ascii "RIFF").length = 4 := rfl
                have wave : (ascii "WAVE").length = 4 := rfl
                omega
          have same := Except.ok.inj ((sized four fits whole).symm.trans written)
          exact ⟨rate, total, rfl, same.symm, fits⟩

/-- The file that is written is well formed, and its chunks are those of the file
that was read, each as it was, with one more in front of the sound: a loop from the
first sample to the last that does not end. -/
theorem addLoop_loops {data out : List UInt8} (written : addLoop data = .ok out) :
    WellFormed out ∧ ∃ rate total, Announced (chunks data) rate total ∧
      chunks out = looped total rate (chunks data) ∧
      structUnpack (List.replicate 15 4) (loopChunk total rate).payload =
        [0, 0, 1000000000 / rate, 60, 0, 0, 0, 1, 0, 0, 0, 0, total - 1, 0, 0] := by
  obtain ⟨rate, total, looks, rfl, fits⟩ := addLoop_ok written
  have sound := looped_sound total rate (chunks_sound data)
  obtain ⟨rates, totals⟩ := foldlM_look_ok looks
  rw [Option.or_none] at rates totals
  obtain ⟨fact, _, same⟩ := Option.map_eq_some_iff.mp totals.symm
  have small : total < 256 ^ 4 := by
    rw [← same]
    exact wordAt_lt 0 fact.payload
  exact ⟨fileOf_wellFormed sound fits, rate, total, ⟨rates.symm, totals.symm⟩,
    chunks_fileOf sound, loopChunk_fields small⟩

def shortChunks : List Chunk :=
  [⟨ascii "fmt ", [0, 0, 0, 0, 0x44, 0xac, 0, 0]⟩, ⟨ascii "fact", [5, 0, 0, 0]⟩,
    ⟨ascii "data", [1, 2, 3]⟩]

theorem addLoop_short :
    addLoop (fileOf shortChunks) = .ok (fileOf (looped 5 44100 shortChunks)) := by
  decide +kernel

theorem addLoop_loops_short :
    addLoop (fileOf shortChunks) = .ok (fileOf (looped 5 44100 shortChunks)) ∧
      WellFormed (fileOf (looped 5 44100 shortChunks)) :=
  ⟨addLoop_short, (addLoop_loops addLoop_short).1⟩

/-- A second run finds the loop and writes nothing; where there is no sound that a
loop could stand in front of, it writes the same file again. -/
theorem addLoop_twice {data out : List UInt8} (written : addLoop data = .ok out) :
    addLoop out = if ∃ chunk ∈ chunks data, chunk.id = ascii "data" then
      .error .alreadyLooped else .ok out := by
  obtain ⟨rate, total, looks, rfl, fits⟩ := addLoop_ok written
  have sound := looped_sound total rate (chunks_sound data)
  have formed := fileOf_wellFormed sound fits
  have again := foldlM_look_looped looks total rate
  unfold addLoop
  rw [if_neg (not_or.mpr ⟨not_not.mpr formed.riff, not_not.mpr formed.wave⟩)]
  rw [chunks_fileOf sound, again]
  by_cases has_data : ∃ chunk ∈ chunks data, chunk.id = ascii "data"
  · rw [if_pos has_data, if_pos has_data]
    rfl
  · rw [if_neg has_data, if_neg has_data]
    have others : ∀ chunk ∈ chunks data, chunk.id ≠ ascii "data" :=
      fun chunk among is_data => has_data ⟨chunk, among, is_data⟩
    rw [looped_others others] at sound fits ⊢
    change ((chunks data).foldlM (put total rate) _ >>= _) = _
    rw [foldlM_put_others sound others]
    refine sized (leBytes_length 4
      (4 + ((chunks data).flatMap Chunk.bytes).length)) fits ?_
    rw [fileOf, List.take_left' (by simp [ascii])]

theorem addLoop_twice_short :
    addLoop (fileOf (looped 5 44100 shortChunks)) = .error .alreadyLooped :=
  (addLoop_twice addLoop_short).trans (if_pos (by decide))

end Pspssh.At3
