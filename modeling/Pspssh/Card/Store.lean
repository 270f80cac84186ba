import Pspssh.Card.File

namespace Pspssh.Card

open Pspssh.Data
open Pspssh.Data.Program

/-! A list that is kept in one file of the card, and what the text of the file
has to do with the list. -/

structure Store (σ ε : Type) where
  path : Path
  /-- The room that a load has for the file. -/
  limit : Nat
  load : σ → Io (Int × σ)
  save : σ → Io (Int × σ)
  entries : σ → List ε
  /-- The list that the content of the file describes. -/
  read : List UInt8 → List ε
  write : List ε → List UInt8
  exists_save : ∀ state card, ∃ written saved,
    Returns (Step noFaults) (save state) card (0, written) saved
  files_saved : ∀ {faults state card written saved},
    Returns (Step faults) (save state) card (0, written) saved →
      saved.files path = some (write (entries state))
  loads : ∀ {card content}, card.files path = some content → ∀ start,
    Ensures (Step noFaults) (fun _ => True)
      (fun loaded _ => (loaded.1, entries loaded.2) =
        if content.length < limit then (0, read content) else (-1, []))
      (load start) card
  short : ∀ state, (write (entries state)).length < limit
  stable : ∀ content, read (write (read content)) = read content

namespace Store

variable {σ ε : Type} (store : Store σ ε) {card saved : MemoryCard}

/-- A loaded list comes back from every save of it, and is then saved as the same
text. -/
def NormalFrom (loaded : σ) (card : MemoryCard) : Prop :=
  (∃ written saved,
    Returns (Step noFaults) (store.save loaded) card (0, written) saved) ∧
  ∀ faults written saved,
    Returns (Step faults) (store.save loaded) card (0, written) saved →
    ∀ start,
      (∃ again last,
        Returns (Step noFaults) (store.load start) saved again last) ∧
      ∀ again last, Returns (Step noFaults) (store.load start) saved again last →
        again.1 = 0 ∧ store.entries again.2 = store.entries loaded ∧
        ∀ faults second final,
          Returns (Step faults) (store.save again.2) last (0, second) final →
          final.files store.path = saved.files store.path

theorem load_saved {faults : IoCall → Prop} {state written : σ}
    (save : Returns (Step faults) (store.save state) card (0, written) saved)
    (start : σ) :
    Ensures (Step noFaults) (fun _ => True)
      (fun loaded _ => loaded.1 = 0 ∧
        store.entries loaded.2 = store.read (store.write (store.entries state)))
      (store.load start) saved := by
  refine (store.loads (store.files_saved save) start).mono
    (fun _ kept => kept) fun loaded _ _ ended => ?_
  rw [if_pos (store.short state)] at ended
  exact Prod.mk.inj ended

theorem entries_loaded {content : List UInt8} {start loaded : σ}
    {last : MemoryCard} (present : card.files store.path = some content)
    (load : Returns (Step noFaults) (store.load start) card (0, loaded) last) :
    store.entries loaded = store.read content := by
  have result := (store.loads present start).returns load
  split at result
  · exact (Prod.mk.inj result).2
  · exact absurd (Prod.mk.inj result).1 (by decide : (0 : Int) ≠ -1)

theorem exists_load {content : List UInt8}
    (present : card.files store.path = some content)
    (short : content.length < store.limit) (start : σ) :
    ∃ loaded last,
      Returns (Step noFaults) (store.load start) card (0, loaded) last ∧
        store.entries loaded = store.read content := by
  have ensured := store.loads present start
  obtain ⟨⟨value, loaded⟩, last, load⟩ := ensured.exists_returns
  have result := (ensured.returns load).trans (if_pos short)
  obtain ⟨zero, entries⟩ := Prod.mk.inj result
  dsimp only at zero
  subst zero
  exact ⟨loaded, last, load, entries⟩

theorem normal_from {content : List UInt8} {start loaded : σ}
    {last : MemoryCard} (present : card.files store.path = some content)
    (load : Returns (Step noFaults) (store.load start) card (0, loaded) last) :
    store.NormalFrom loaded last := by
  have entries := store.entries_loaded present load
  refine ⟨store.exists_save loaded last, ?_⟩
  intro faults written saved save start
  have back := store.load_saved save start
  refine ⟨back.exists_returns, fun again last load => ?_⟩
  obtain ⟨zero, same⟩ := back.returns load
  rw [entries, store.stable, ← entries] at same
  refine ⟨zero, same, fun faults second final resave => ?_⟩
  rw [store.files_saved resave, store.files_saved save, same]

/-- Whatever is saved of the list is within the room of a load, which reads it
whole. -/
structure ReadsBack (state : σ) : Prop where
  short : (store.write (store.entries state)).length < store.limit
  whole : ∀ {faults card written saved},
    Returns (Step faults) (store.save state) card (0, written) saved →
    ∀ {read last},
      Returns (Step noFaults) (cardfileRead store.path store.limit) saved read
        last →
      read.value = .whole (store.write (store.entries state))
  loads : ∀ {faults card written saved},
    Returns (Step faults) (store.save state) card (0, written) saved →
    ∀ {start loaded last},
      Returns (Step noFaults) (store.load start) saved loaded last →
      loaded.1 = 0

theorem readsBack (state : σ) : store.ReadsBack state where
  short := store.short state
  whole := fun save _ _ run =>
    (cardfileRead_present (store.files_saved save) (store.short state)).returns run
  loads := fun save start _ _ run => ((store.load_saved save start).returns run).1

end Store

end Pspssh.Card
