import Pspssh.Screen.Cursor
import Pspssh.Screen.Panel

namespace Pspssh.Screen

open Pspssh.Data Pspssh.Hosts Pspssh.Terminal

/-! What can be read off the pixels of a session's screen. -/

/-! ## Glyphs -/

def pattern (ch : UInt8) : List Bool :=
  (List.range 12).flatMap fun y => (List.range 6).map fun x => inked ch x y

theorem drawn_drawn (ch : UInt8) : drawn (drawn ch) = drawn ch := by
  unfold drawn
  split
  · rfl
  · rfl

theorem inked_drawn (ch : UInt8) (x y : Nat) : inked (drawn ch) x y = inked ch x y := by
  unfold inked
  rw [drawn_drawn]

theorem exists_printable (ch : UInt8) :
    ∃ i : Fin 95, drawn ch = 0x20 + UInt8.ofNat i := by
  have every : ∀ i : Fin 256, ∃ j : Fin 95,
      drawn (UInt8.ofNat i) = 0x20 + UInt8.ofNat j := by decide +kernel
  have found := every ⟨ch.toNat, ch.toNat_lt⟩
  rwa [UInt8.ofNat_toNat] at found

theorem pattern_injective {left right : UInt8} (same : pattern left = pattern right) :
    drawn left = drawn right := by
  have distinct : ((List.finRange 95).map fun i : Fin 95 =>
      pattern (0x20 + UInt8.ofNat i)).Nodup := by decide +kernel
  have as_drawn (ch : UInt8) : pattern (drawn ch) = pattern ch := by
    simp only [pattern, inked_drawn]
  obtain ⟨i, leftDrawn⟩ := exists_printable left
  obtain ⟨j, rightDrawn⟩ := exists_printable right
  rw [← as_drawn left, ← as_drawn right, leftDrawn, rightDrawn] at same
  have index : i = j := List.inj_on_of_nodup_map distinct (List.mem_finRange i)
    (List.mem_finRange j) same
  rw [leftDrawn, rightDrawn, index]

/-- The last pixel of the first row is ground in every glyph. -/
theorem corner_not_inked (ch : UInt8) : inked ch 5 0 = false := by
  have every : ∀ i : Fin 95, inked (0x20 + UInt8.ofNat i) 5 0 = false := by
    decide +kernel
  obtain ⟨i, printable⟩ := exists_printable ch
  rw [← inked_drawn, printable]
  exact every i

theorem space_not_inked {ch : UInt8} (space : drawn ch = 0x20) {x y : Nat}
    (right : x < 6) (below : y < 12) : inked ch x y = false := by
  have every : ∀ (y : Fin 12) (x : Fin 6), inked 0x20 x y = false := by
    decide +kernel
  rw [← inked_drawn, space]
  exact every ⟨y, below⟩ ⟨x, right⟩

theorem exists_inked {ch : UInt8} (other : drawn ch ≠ 0x20) :
    ∃ x y : Nat, x < 6 ∧ y < 12 ∧ inked ch x y = true := by
  have every : ∀ i : Fin 95, 0x20 + UInt8.ofNat i = 0x20 ∨
      ∃ (y : Fin 12) (x : Fin 6), inked (0x20 + UInt8.ofNat i) x y = true := by
    decide +kernel
  obtain ⟨i, printable⟩ := exists_printable ch
  rcases every i with space | ⟨y, x, ink⟩
  · exact absurd (printable.trans space) other
  · exact ⟨x, y, x.isLt, y.isLt, by rw [← inked_drawn, printable]; exact ink⟩

/-! ## Cells -/

/-- A cell of which only the ground can be seen. -/
def Tile.Inkless (tile : Tile) : Prop :=
  drawn tile.ch = 0x20 ∨ tile.fg = tile.bg

/-- Two cells that nobody can tell apart. -/
def Tile.Alike (left right : Tile) : Prop :=
  left.bg = right.bg ∧
    (left.Inkless ∧ right.Inkless ∨
      drawn left.ch = drawn right.ch ∧ left.fg = right.fg)

instance (tile : Tile) : Decidable tile.Inkless :=
  inferInstanceAs (Decidable (_ ∨ _))

instance (left right : Tile) : Decidable (left.Alike right) :=
  inferInstanceAs (Decidable (_ ∧ _))

def InCell (x y : Int) : Prop :=
  (0 ≤ x ∧ x < cellW) ∧ 0 ≤ y ∧ y < cellH

theorem Tile.pixel_nat (tile : Tile) (x y : Nat) :
    tile.pixel x y = if inked tile.ch x y then tile.fg else tile.bg := rfl

theorem Tile.Inkless.pixel {tile : Tile} (inkless : tile.Inkless) {x y : Int}
    (inside : InCell x y) : tile.pixel x y = tile.bg := by
  have sizes : cellW = 6 ∧ cellH = 12 := ⟨rfl, rfl⟩
  obtain ⟨⟨left, right⟩, above, below⟩ := inside
  rcases inkless with space | same
  · unfold Tile.pixel
    rw [space_not_inked space (by omega) (by omega)]
    rfl
  · unfold Tile.pixel
    rw [same, ite_self]

section Telling

variable {left right : Tile}

theorem in_cell {x y : Nat} (inRow : x < 6) (inColumn : y < 12) :
    InCell x y := by
  have sizes : cellW = 6 ∧ cellH = 12 := ⟨rfl, rfl⟩
  unfold InCell
  omega

theorem bg_of_pixels (same : ∀ x y, InCell x y → left.pixel x y = right.pixel x y) :
    left.bg = right.bg := by
  have corner : left.pixel (5 : Nat) (0 : Nat) = right.pixel (5 : Nat) (0 : Nat) :=
    same _ _ (in_cell (by decide) (by decide))
  rw [Tile.pixel_nat, Tile.pixel_nat, corner_not_inked, corner_not_inked] at corner
  exact corner

theorem inkless_of_pixels
    (same : ∀ x y, InCell x y → left.pixel x y = right.pixel x y)
    (inkless : left.Inkless) : right.Inkless := by
  have ground := bg_of_pixels same
  by_contra visible
  obtain ⟨other, colours⟩ := not_or.mp visible
  obtain ⟨x, y, inRow, inColumn, ink⟩ := exists_inked other
  have here := same x y (in_cell inRow inColumn)
  rw [inkless.pixel (in_cell inRow inColumn), Tile.pixel_nat, if_pos ink] at here
  exact colours (here.symm.trans ground)

/-- Two cells have the same pixels exactly if they are alike. -/
theorem pixels_eq_iff :
    (∀ x y, InCell x y → left.pixel x y = right.pixel x y) ↔ left.Alike right := by
  constructor
  · intro same
    have ground := bg_of_pixels same
    refine ⟨ground, ?_⟩
    by_cases inkless : left.Inkless
    · exact .inl ⟨inkless, inkless_of_pixels same inkless⟩
    have visible : ¬ right.Inkless := fun other =>
      inkless (inkless_of_pixels (fun x y inside => (same x y inside).symm) other)
    obtain ⟨glyph, leftColours⟩ := not_or.mp inkless
    have rightColours := (not_or.mp visible).2
    have inks (x y : Nat) (inRow : x < 6) (inColumn : y < 12) :
        inked left.ch x y = inked right.ch x y := by
      have here := same x y (in_cell inRow inColumn)
      rw [Tile.pixel_nat, Tile.pixel_nat] at here
      cases first : inked left.ch x y with
      | true =>
          cases second : inked right.ch x y with
          | true => rfl
          | false =>
              rw [first, second] at here
              exact absurd (here.trans ground.symm) leftColours
      | false =>
          cases second : inked right.ch x y with
          | true =>
              rw [first, second] at here
              exact absurd (here.symm.trans ground) rightColours
          | false => rfl
    obtain ⟨x, y, inRow, inColumn, ink⟩ := exists_inked glyph
    refine .inr ⟨pattern_injective ?_, ?_⟩
    · refine List.flatMap_congr fun y inColumn => List.map_congr_left fun x inRow => ?_
      exact inks x y (List.mem_range.mp inRow) (List.mem_range.mp inColumn)
    · have here := same x y (in_cell inRow inColumn)
      rw [Tile.pixel_nat, Tile.pixel_nat, ← inks x y inRow inColumn, ink] at here
      exact here
  · rintro ⟨ground, both⟩ x y inside
    rcases both with ⟨first, second⟩ | ⟨glyph, colour⟩
    · rw [first.pixel inside, second.pixel inside, ground]
    · unfold Tile.pixel
      rw [← inked_drawn left.ch, glyph, inked_drawn, ground, colour]

end Telling

/-! ## A frame of a session -/

namespace Canvas

variable {left right : Canvas} {row c r : Int} {fg bg : UInt32}

theorem puts_other (text : List UInt8) {canvas : Canvas} {col : Int}
    (apart : r ≠ row) : canvas.puts row fg bg text col c r = canvas c r := by
  induction text generalizing canvas col with
  | nil => rfl
  | cons ch rest ih =>
      rw [Canvas.puts, ih, Canvas.glyph, if_neg (by omega)]

/-- What a text leaves in a cell depends on no other cell. -/
theorem puts_congr (text : List UInt8) {col : Int} (same : left c r = right c r) :
    left.puts row fg bg text col c r = right.puts row fg bg text col c r := by
  induction text generalizing left right col with
  | nil => exact same
  | cons ch rest ih =>
      apply ih
      unfold Canvas.glyph
      rw [same]

end Canvas

def cellTile (blink : Bool) (term : Term) (place : Int × Int) : Tile :=
  let cell := termAt place.2 place.1 term
  let ch := (cell.map Cell.ch).getD 0x20
  let fg := paletteAt ((cell.map Cell.fg).getD 7)
  let bg := paletteAt ((cell.map Cell.bg).getD 0)
  if blink ∧ place.1 = term.cursorRow ∧ place.2 = term.cursorCol then ⟨ch, bg, fg⟩
  else ⟨ch, fg, bg⟩

theorem drawCell_run (blink : Bool) (term : Term) (place : Int × Int)
    (panel : Panel) :
    panel.run (drawCell blink term place.1 place.2) =
      { panel with
        drawn := panel.drawn.glyph place.2 (place.1 + termTop)
          (cellTile blink term place) } := by
  unfold drawCell cellTile
  dsimp only
  split
  · rfl
  · rfl

theorem drawCells_run (blink : Bool) (term : Term) (panel : Panel)
    {places : List (Int × Int)} (onScreen : ∀ place ∈ places, place ∈ screenPlaces) :
    (places.map fun place => drawCell blink term place.1 place.2).foldl Panel.run
        panel =
      { panel with
        drawn := fun c r =>
          if (r - termTop, c) ∈ places then cellTile blink term (r - termTop, c)
          else panel.drawn c r } := by
  have height : termRows = 20 ∧ gfxRows = 22 ∧ termTop = 1 := ⟨rfl, rfl, rfl⟩
  induction places generalizing panel with
  | nil => rfl
  | cons place rest ih =>
      have first := mem_screenPlaces.mp (onScreen place (by simp))
      rw [List.map_cons, List.foldl_cons, drawCell_run,
        ih _ fun other member => onScreen other (List.mem_cons_of_mem _ member)]
      congr 1
      funext c r
      by_cases later : (r - termTop, c) ∈ rest
      · rw [if_pos later, if_pos (List.mem_cons_of_mem _ later)]
      rw [if_neg later]
      dsimp only [Canvas.glyph]
      by_cases here : (r - termTop, c) = place
      · obtain ⟨level, column⟩ := Prod.ext_iff.mp here
        dsimp only at level column
        rw [if_pos (by omega), if_pos (by rw [here]; exact List.mem_cons_self), here]
      · rw [if_neg (fun inside => here (Prod.ext (by dsimp only; omega) inside.1.1)),
          if_neg (fun member => (List.mem_cons.mp member).elim here later)]

def surround (build : Build) (host : HostEntry) (bellLeft : Int) : Canvas :=
  let bar := if bellLeft > 0 ∧ bellLeft / 6 % 2 = 0 then gfxRed else gfxAccent
  ((titleBar build bar (titleText host) ++
    [Drawing.puts 1 (gfxRows - 1) legend gfxGrey gfxBlack]).foldl Panel.run
      .black).drawn

/-- A frame is the terminal, cell by cell, in a surround that does not depend on
it; nothing of what was drawn earlier is left. -/
theorem drawTerminal_run (build : Build) (host : HostEntry) (blink : Bool)
    (bellLeft : Int) (term : Term) (panel : Panel) :
    (drawTerminal build host blink true bellLeft term).foldl Panel.run panel =
      { panel with
        drawn := fun c r =>
          if (r - termTop, c) ∈ screenPlaces then
            cellTile blink term (r - termTop, c)
          else surround build host bellLeft c r } := by
  unfold drawTerminal
  dsimp only
  rw [List.foldl_append, List.foldl_append, List.foldl_append, drawCells_run _ _ _
    fun place member => member]
  refine congrArg₂ Panel.mk ?_ rfl
  funext c r
  by_cases inside : (r - termTop, c) ∈ screenPlaces
  · have height : termRows = 20 ∧ gfxRows = 22 ∧ termTop = 1 := ⟨rfl, rfl, rfl⟩
    have level := (mem_screenPlaces.mp inside).1
    rw [if_pos inside]
    refine (Canvas.puts_other _ ?_).trans (if_pos inside)
    dsimp only at level
    omega
  · rw [if_neg inside]
    exact Canvas.puts_congr _ (if_neg inside)

/-! ## What can be read -/

/-- Two cells of a terminal that look the same: what is in them is, if it can be
seen at all. -/
def CellsAlike (left right : Cell) : Prop :=
  left.bg = right.bg ∧
    ((drawn left.ch = 0x20 ∨ left.fg = left.bg) ∧
        (drawn right.ch = 0x20 ∨ right.fg = right.bg) ∨
      drawn left.ch = drawn right.ch ∧ left.fg = right.fg)

/-- A cell as it is seen: that of the cursor with its colours exchanged, if the
cursor is shown. -/
def seenAt (blink : Bool) (term : Term) (row col : Int) : Option Cell :=
  (termAt col row term).map fun cell =>
    if blink ∧ row = term.cursorRow ∧ col = term.cursorCol then
      { cell with fg := cell.bg, bg := cell.fg }
    else cell

/-- The same text in the same colours. -/
def SameText (left right : Int → Int → Option Cell) : Prop :=
  ∀ row col first second, left row col = some first → right row col = some second →
    CellsAlike first second

theorem cellTile_of_seen {blink : Bool} {term : Term} {place : Int × Int} {cell : Cell}
    (found : seenAt blink term place.1 place.2 = some cell) :
    cellTile blink term place = ⟨cell.ch, paletteAt cell.fg, paletteAt cell.bg⟩ := by
  obtain ⟨stored, there, rfl⟩ := Option.map_eq_some_iff.mp found
  unfold cellTile
  rw [there]
  dsimp only [Option.map_some, Option.getD_some]
  split
  · rfl
  · rfl

theorem tiles_alike_iff {left right : Cell} (leftSmall : left.fg ≤ 15 ∧ left.bg ≤ 15)
    (rightSmall : right.fg ≤ 15 ∧ right.bg ≤ 15) :
    Tile.Alike ⟨left.ch, paletteAt left.fg, paletteAt left.bg⟩
        ⟨right.ch, paletteAt right.fg, paletteAt right.bg⟩ ↔
      CellsAlike left right := by
  have same {first second : UInt8} (firstSmall : first ≤ 15)
      (secondSmall : second ≤ 15) :
      paletteAt first = paletteAt second ↔ first = second :=
    ⟨paletteAt_inj firstSmall secondSmall, congrArg paletteAt⟩
  unfold Tile.Alike Tile.Inkless CellsAlike
  dsimp only
  rw [same leftSmall.2 rightSmall.2, same leftSmall.1 leftSmall.2,
    same rightSmall.1 rightSmall.2, same leftSmall.1 rightSmall.1]

theorem Drawn.seen_colours {blink : Bool} {term : Term} (drawn : Drawn term)
    {row col : Int} {cell : Cell} (found : seenAt blink term row col = some cell) :
    cell.fg ≤ 15 ∧ cell.bg ≤ 15 := by
  obtain ⟨stored, there, rfl⟩ := Option.map_eq_some_iff.mp found
  have small := drawn.colours _ _ _ there
  split
  · exact small.symm
  · exact small

theorem Drawn.exists_seen {term : Term} (drawn : Drawn term) (blink : Bool)
    {place : Int × Int} (onScreen : place ∈ screenPlaces) :
    ∃ cell, seenAt blink term place.1 place.2 = some cell := by
  obtain ⟨stored, there⟩ := drawn.exists_cell onScreen
  exact ⟨_, Option.map_eq_some_iff.mpr ⟨stored, there, rfl⟩⟩

theorem Drawn.onScreen_of_seen {blink : Bool} {term : Term} (drawn : Drawn term)
    {row col : Int} {cell : Cell} (found : seenAt blink term row col = some cell) :
    (row, col) ∈ screenPlaces := by
  obtain ⟨stored, there, _⟩ := Option.map_eq_some_iff.mp found
  have cols := drawn.cols
  have rows := drawn.rows
  rw [mem_screenPlaces]
  dsimp only
  by_contra outside
  rw [termAt, if_pos (by omega)] at there
  contradiction

theorem sameText_iff {blink blink' : Bool} {left right : Term}
    (leftDrawn : Drawn left) (rightDrawn : Drawn right) :
    SameText (seenAt blink left) (seenAt blink' right) ↔
      ∀ place ∈ screenPlaces,
        (cellTile blink left place).Alike (cellTile blink' right place) := by
  constructor
  · intro same place onScreen
    obtain ⟨first, found⟩ := leftDrawn.exists_seen blink onScreen
    obtain ⟨second, also⟩ := rightDrawn.exists_seen blink' onScreen
    rw [cellTile_of_seen found, cellTile_of_seen also,
      tiles_alike_iff (leftDrawn.seen_colours found) (rightDrawn.seen_colours also)]
    exact same _ _ _ _ found also
  · intro alike row col first second found also
    have here := alike (row, col) (leftDrawn.onScreen_of_seen found)
    have leftTile : cellTile blink left (row, col) = _ := cellTile_of_seen found
    have rightTile : cellTile blink' right (row, col) = _ := cellTile_of_seen also
    rwa [leftTile, rightTile, tiles_alike_iff (leftDrawn.seen_colours found)
        (rightDrawn.seen_colours also)] at here

def Gfx.displayed (gfx : Gfx) (x y : Int) : UInt32 :=
  gfx.vram (pixelAt gfx.guDisp bufWidth x y)

/-- The screen after some drawing and then one whole frame of a session. -/
def shownFrame (vram : Int → UInt32) (earlier : List Drawing) (build : Build)
    (host : HostEntry) (blink : Bool) (bellLeft : Int) (term : Term) : Gfx :=
  (earlier ++ drawTerminal build host blink true bellLeft term ++
    [Drawing.flip]).foldl Gfx.run (gfxInit (Gfx.unstarted vram))

theorem drawTerminal_fits (build : Build) (host : HostEntry) (blink : Bool)
    (bellLeft : Int) (term : Term) :
    ∀ drawing ∈ drawTerminal build host blink true bellLeft term, drawing.Fits := by
  intro drawing member
  unfold drawTerminal titleBar at member
  simp only [if_true, List.mem_append, List.mem_cons, List.not_mem_nil, or_false,
    List.mem_map] at member
  rcases member with ((rfl | rfl | rfl | rfl) | ⟨place, _, rfl⟩) | rfl
  · trivial
  · have bar : Drawing.Fits (.fillCells 0 0 gfxCols 1 gfxAccent) := by decide
    exact bar
  · trivial
  · trivial
  · unfold drawCell
    dsimp only
    split
    · trivial
    · trivial
  · trivial

theorem shownFrame_displayed {vram : Int → UInt32} {earlier : List Drawing}
    {build : Build} {host : HostEntry} {blink : Bool} {bellLeft : Int} {term : Term}
    {x y : Int} (fit : ∀ drawing ∈ earlier, drawing.Fits) (visible : OnPanel x y) :
    (shownFrame vram earlier build host blink bellLeft term).displayed x y =
      Canvas.pixel (fun c r =>
        if (r - termTop, c) ∈ screenPlaces then
          cellTile blink term (r - termTop, c)
        else surround build host bellLeft c r) x y := by
  have fits : ∀ drawing ∈
      earlier ++ drawTerminal build host blink true bellLeft term ++ [Drawing.flip],
      drawing.Fits := by
    intro drawing member
    simp only [List.mem_append, List.mem_singleton] at member
    rcases member with (before | here) | rfl
    · exact fit drawing before
    · exact drawTerminal_fits build host blink bellLeft term drawing here
    · trivial
  refine (((gfxInit_shows vram).runs fits).shown x y visible).trans ?_
  rw [List.foldl_append, List.foldl_append, drawTerminal_run]
  rfl

/-- What is on display tells exactly the text of a session: two sessions that
are shown with the same title have the same pixels if and only if their
terminals show the same text, with the colours exchanged under a cursor that is
shown, whatever was received or, without an overflow, drawn before. -/
theorem display_tells_text (vram vram' : Int → UInt32)
    (earlier earlier' : List Drawing) (fit : ∀ drawing ∈ earlier, drawing.Fits)
    (fit' : ∀ drawing ∈ earlier', drawing.Fits) (build : Build) (host : HostEntry)
    (blink blink' : Bool) (bellLeft : Int) (before before' : List TermCall)
    (frames frames' : List (List (List UInt8))) :
    (∀ x y, OnPanel x y →
        (shownFrame vram earlier build host blink bellLeft
            (sessionTerminal before frames)).displayed x y =
          (shownFrame vram' earlier' build host blink' bellLeft
            (sessionTerminal before' frames')).displayed x y) ↔
      SameText (seenAt blink (sessionTerminal before frames))
        (seenAt blink' (sessionTerminal before' frames')) := by
  have sizes : cellW = 6 ∧ cellH = 12 ∧ scrWidth = 480 ∧ scrHeight = 272 ∧
      termRows = 20 ∧ gfxCols = 80 ∧ termTop = 1 := ⟨rfl, rfl, rfl, rfl, rfl, rfl, rfl⟩
  rw [sameText_iff (session_drawn before frames) (session_drawn before' frames')]
  constructor
  · rintro same ⟨row, col⟩ onScreen
    obtain ⟨level, column⟩ := mem_screenPlaces.mp onScreen
    dsimp only at level column
    refine pixels_eq_iff.mp fun x y inside => ?_
    obtain ⟨across, down⟩ := inside
    have visible : OnPanel (col * cellW + x) ((row + termTop) * cellH + y) := by
      unfold OnPanel
      rw [sizes.1, sizes.2.1]
      omega
    have here := same _ _ visible
    have tile : (col * cellW + x) / cellW = col ∧
        ((row + termTop) * cellH + y) / cellH = row + termTop := by
      rw [sizes.1, sizes.2.1]
      omega
    have offset : (col * cellW + x) % cellW = x ∧
        ((row + termTop) * cellH + y) % cellH = y := by
      rw [sizes.1, sizes.2.1]
      omega
    rw [shownFrame_displayed fit visible, shownFrame_displayed fit' visible] at here
    unfold Canvas.pixel at here
    dsimp only at here
    rw [tile.1, tile.2, offset.1, offset.2, Int.add_sub_cancel, if_pos onScreen,
      if_pos onScreen] at here
    exact here
  · intro alike x y visible
    rw [shownFrame_displayed fit visible, shownFrame_displayed fit' visible]
    unfold Canvas.pixel
    dsimp only
    have inside : InCell (x % cellW) (y % cellH) := by
      unfold InCell
      rw [sizes.1, sizes.2.1]
      omega
    by_cases onScreen : (y / cellH - termTop, x / cellW) ∈ screenPlaces
    · rw [if_pos onScreen, if_pos onScreen]
      exact pixels_eq_iff.mpr (alike _ onScreen) _ _ inside
    · rw [if_neg onScreen, if_neg onScreen]

/-- A title bar is drawn first, and two letters are compared with one and the
cursor behind it. -/
theorem display_tells_letters :
    (∀ x y, OnPanel x y →
        (shownFrame (fun _ => 0) [.fillCells 0 0 gfxCols 1 gfxRed]
            ⟨ascii "2.1.1", []⟩ hostsBlank false 0
            (sessionTerminal [] [[ascii "ab"]])).displayed x y =
          (shownFrame (fun _ => 0) [] ⟨ascii "2.1.1", []⟩ hostsBlank true 0
            (sessionTerminal [] [[ascii "a"]])).displayed x y) ↔
      SameText (seenAt false (sessionTerminal [] [[ascii "ab"]]))
        (seenAt true (sessionTerminal [] [[ascii "a"]])) :=
  display_tells_text _ _ _ _ (by decide) (by decide) _ _ _ _ _ _ _ _ _

end Pspssh.Screen
