import Pspssh.Terminal.Excursion

namespace Pspssh.Terminal

open Pspssh.Data

/-! Which bells the application gets to hear of. -/

open Term

variable {term : Term}

theorem feedByte_bell (safe : term.Safe) (ch : UInt8) :
    (term.feedByte ch).bellRang = true ↔
      term.Rings ch ∨ term.bellRang = true ∧ ¬ term.Restarts ch := by
  by_cases rings : term.Rings ch
  · rw [feedByte_rings rings]
    simp [rings]
  by_cases restarts : term.Restarts ch
  · obtain ⟨escaped, rfl⟩ := restarts
    have reset : term.feedByte 0x63 = termReset term.cols term.rows term :=
      feedByte_sawEsc 0x63 escaped
    have silent : (term.feedByte 0x63).bellRang = false := by
      rw [reset, termReset_eq]
    simp [silent, Rings, Restarts, escaped]
  have kept : (term.feedByte ch).bellRang = term.bellRang := by
    by_cases saves : term.Saves ch
    · obtain ⟨reading, rfl⟩ := saves
      rw [feedByte_final reading (by decide)]
      rfl
    · exact congrArg (·.2.2.2.2) (feedByte_latches safe saves restarts rings)
  simp [kept, rings, restarts]

/-- The bell is up after a stream if it was rung and no full reset came
since. -/
theorem termFeed_bell (safe : term.Safe) (data : List UInt8) :
    (termFeed data term).bellRang = true ↔
      Since feedByte Rings Restarts term data ∨
        term.bellRang = true ∧ ¬ Somewhere feedByte Restarts term data :=
  latch_iff (fun state => state.bellRang = true) Safe
    (fun _ ch reached => reached.feedByte ch)
    (fun _ ch reached => feedByte_bell reached ch) safe

/-- The application asks, is fed the pieces of a stream, and asks twice. -/
structure BellKept (pieces : List (List UInt8)) (asked : Term) : Prop where
  told : (termTakeBell (runCalls (pieces.map .feed) asked)).1 = true ↔
    Somewhere feedByte Rings asked pieces.flatten
  once : (termTakeBell
    (termTakeBell (runCalls (pieces.map .feed) asked)).2).1 = false

/-- The bells of a stream are reported exactly if no full reset comes after
the last of them. -/
theorem bell_kept_iff (c r : Int) (calls : List TermCall)
    (pieces : List (List UInt8)) :
    let asked := (termTakeBell (runCalls calls (termReset c r initial))).2
    BellKept pieces asked ↔
      (Somewhere feedByte Rings asked pieces.flatten →
        Since feedByte Rings Restarts asked pieces.flatten) := by
  intro asked
  have safe : asked.Safe := { (Term.Safe.fresh c r).runCalls calls with }
  have fed : runCalls (pieces.map .feed) asked = termFeed pieces.flatten asked := by
    rw [termFeed_flatten, runCalls, List.foldl_map]
    rfl
  have silent : asked.bellRang = false := rfl
  have bell : (termTakeBell (termFeed pieces.flatten asked)).1 = true ↔
      Since feedByte Rings Restarts asked pieces.flatten := by
    refine (termFeed_bell safe pieces.flatten).trans ?_
    simp [silent]
  constructor
  · intro kept rung
    have told := kept.told
    rw [fed, bell] at told
    exact told.mpr rung
  · intro stands
    refine ⟨?_, rfl⟩
    rw [fed, bell]
    exact ⟨Since.somewhere, stands⟩

/-- BEL, then `ESC c`. -/
theorem reset_drops_bell :
    let asked := (termTakeBell (runCalls [] (termReset 80 20 initial))).2
    Somewhere feedByte Rings asked [[0x07, 0x1b, 0x63]].flatten ∧
      (termTakeBell (runCalls [.feed [0x07, 0x1b, 0x63]] asked)).1 = false ∧
      ¬ BellKept [[0x07, 0x1b, 0x63]] asked := by
  intro asked
  have rung : Somewhere feedByte Rings asked [[0x07, 0x1b, 0x63]].flatten :=
    somewhere_cons.mpr (.inl ⟨by decide +kernel, rfl⟩)
  have untold : (termTakeBell
      (runCalls [.feed [0x07, 0x1b, 0x63]] asked)).1 = false := by
    decide +kernel
  refine ⟨rung, untold, fun kept => ?_⟩
  have told := kept.told.mpr rung
  exact absurd (untold.symm.trans told) (by decide)

end Pspssh.Terminal
