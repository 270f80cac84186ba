import Pspssh.Terminal.Csi

namespace Pspssh.Terminal

namespace Term

/-! The parser, one byte at a time. -/


/-- `case GROUND` of `term_feed`. -/
def feedGround (ch : UInt8) (term : Term) : Term :=
  if ch = 0x1b then { term with state := .sawEsc }
  else if ch = 0x0a then term.lineFeed
  else if ch = 0x0d then { term with cursorCol := 0 }
  else if ch = 0x08 then
    if term.cursorCol > 0 then { term with cursorCol := term.cursorCol - 1 }
    else term
  else if ch = 0x09 then term.tab
  else if ch = 0x07 then { term with bellRang := true }
  else if 0x20 ≤ ch ∧ ch ≠ 0x7f then term.putChar ch
  else term

/-- `ESC M`: up one line, scrolling the region if at its top. -/
def reverseIndex (term : Term) : Term :=
  if term.cursorRow = term.scrollTop then term.scrollRegionDown 1
  else if term.cursorRow > 0 then
    { term with cursorRow := term.cursorRow - 1 }
  else term

def feedSawEsc (ch : UInt8) (term : Term) : Term :=
  match Char.ofUInt8 ch with
  | '[' =>
      { term with
        state := .inCsi, paramCount := 0, paramSeen := false,
        privateMarker := 0, params := fun _ => 0 }
  | ']' => { term with state := .inOsc }
  | '(' | ')' | '#' | '%' => { term with state := .skipOne }
  | 'M' => { term.reverseIndex with state := .ground }
  | 'D' => { term.lineFeed with state := .ground }
  | 'E' => { { term with cursorCol := 0 }.lineFeed with state := .ground }
  | 'c' => termReset term.cols term.rows term
  | _ => { term with state := .ground }

def feedDigit (digit : Nat) (term : Term) : Term :=
  let count := if term.paramCount = 0 then 1 else term.paramCount
  let counted := { term with paramCount := count }
  let value := counted.params (count - 1) * 10 + digit
  let stored :=
    if count ≤ maxParams then
      (counted.readParam (count - 1)).writeParam (count - 1)
        (if value > 9999 then 9999 else value)
    else counted
  { stored with paramSeen := true }

def feedSemicolon (term : Term) : Term :=
  { term with
    paramCount :=
      if term.paramCount < maxParams then term.paramCount + 1
      else term.paramCount
    paramSeen := true }

def feedInCsi (ch : UInt8) (term : Term) : Term :=
  if 0x30 ≤ ch ∧ ch ≤ 0x39 then term.feedDigit (ch - 0x30).toNat
  else if ch = 0x3b then term.feedSemicolon
  else if ch = 0x3f ∨ ch = 0x3e ∨ ch = 0x21 then
    { term with privateMarker := ch }
  else if 0x40 ≤ ch ∧ ch ≤ 0x7e then
    { term.dispatchCsi ch with state := .ground }
  else term

/-- `case IN_OSC`: up to BEL or ST. -/
def feedInOsc (ch : UInt8) (term : Term) : Term :=
  if ch = 0x07 then { term with state := .ground }
  else if ch = 0x1b then { term with state := .sawOscEsc }
  else term

def feedSawOscEsc (ch : UInt8) (term : Term) : Term :=
  { term with state := if ch = 0x5c then .ground else .inOsc }

/-- The body of the loop in `term_feed`. -/
def feedByte (term : Term) (ch : UInt8) : Term :=
  match term.state with
  | .ground => term.feedGround ch
  | .sawEsc => term.feedSawEsc ch
  | .inCsi => term.feedInCsi ch
  | .inOsc => term.feedInOsc ch
  | .sawOscEsc => term.feedSawOscEsc ch
  | .skipOne => { term with state := .ground }

end Term

def termFeed (data : List UInt8) (term : Term) : Term :=
  data.foldl Term.feedByte term

inductive TermCall where
  | reset (c r : Int)
  | feed (data : List UInt8)
  | takeBell

def TermCall.run (term : Term) : TermCall → Term
  | .reset c r => termReset c r term
  | .feed data => termFeed data term
  | .takeBell => (termTakeBell term).2

def runCalls (calls : List TermCall) (term : Term) : Term :=
  calls.foldl TermCall.run term

/-- The call with the bytes it feeds handed over one at a time. -/
def TermCall.unpack : TermCall → List TermCall
  | .feed data => data.map fun ch => .feed [ch]
  | call => [call]

structure Shown where
  cols : Int
  rows : Int
  cellAt : Int → Int → Option Cell
  cursorCol : Int
  cursorRow : Int
  bell : Bool

def shown (term : Term) : Shown where
  cols := term.cols
  rows := term.rows
  cellAt col row := termAt col row term
  cursorCol := term.cursorCol
  cursorRow := term.cursorRow
  bell := (termTakeBell term).1

theorem termFeed_append (first second : List UInt8) (term : Term) :
    termFeed (first ++ second) term = termFeed second (termFeed first term) :=
  List.foldl_append

theorem termFeed_flatten (pieces : List (List UInt8)) (term : Term) :
    termFeed pieces.flatten term =
      pieces.foldl (fun state piece => termFeed piece state) term := by
  induction pieces generalizing term with
  | nil => rfl
  | cons piece rest ih =>
      rw [List.flatten_cons, termFeed_append, ih]
      rfl

/-- It does not matter in what pieces the bytes of a history are fed. -/
theorem runCalls_unpack (calls : List TermCall) (term : Term) :
    runCalls (calls.flatMap TermCall.unpack) term = runCalls calls term := by
  induction calls generalizing term with
  | nil => rfl
  | cons call rest ih =>
      have first : runCalls call.unpack term = call.run term := by
        cases call with
        | feed data => simp [runCalls, TermCall.unpack, TermCall.run, termFeed,
            List.foldl_map]
        | reset c r => rfl
        | takeBell => rfl
      rw [List.flatMap_cons, runCalls, List.foldl_append]
      change runCalls (rest.flatMap TermCall.unpack) (runCalls call.unpack term) = _
      rw [first, ih]
      rfl

namespace Term

theorem feedByte_ground {term : Term} (ch : UInt8)
    (ground : term.state = .ground) : term.feedByte ch = term.feedGround ch := by
  rw [feedByte, ground]

theorem feedByte_sawEsc {term : Term} (ch : UInt8)
    (escaped : term.state = .sawEsc) :
    term.feedByte ch = term.feedSawEsc ch := by
  rw [feedByte, escaped]

theorem feedByte_inCsi {term : Term} (ch : UInt8)
    (reading : term.state = .inCsi) :
    term.feedByte ch = term.feedInCsi ch := by
  rw [feedByte, reading]

theorem feedByte_inOsc {term : Term} (ch : UInt8)
    (reading : term.state = .inOsc) :
    term.feedByte ch = term.feedInOsc ch := by
  rw [feedByte, reading]

theorem feedByte_sawOscEsc {term : Term} (ch : UInt8)
    (escaped : term.state = .sawOscEsc) :
    term.feedByte ch = term.feedSawOscEsc ch := by
  rw [feedByte, escaped]

theorem feedByte_skipOne {term : Term} (ch : UInt8)
    (skipping : term.state = .skipOne) :
    term.feedByte ch = { term with state := .ground } := by
  rw [feedByte, skipping]

theorem feedByte_escape {term : Term} (ground : term.state = .ground) :
    term.feedByte 0x1b = { term with state := .sawEsc } := by
  rw [feedByte_ground _ ground]
  rfl

/-- The parser after `ESC` and the byte behind it. -/
def escaped (term : Term) (ch : UInt8) : Term :=
  { term with state := .sawEsc }.feedSawEsc ch

theorem termFeed_escaped {term : Term} (ground : term.state = .ground)
    (ch : UInt8) (rest : List UInt8) :
    termFeed (0x1b :: ch :: rest) term = termFeed rest (term.escaped ch) := by
  change termFeed rest ((term.feedByte 0x1b).feedByte ch) = _
  rw [feedByte_escape ground, feedByte_sawEsc ch rfl]
  rfl

theorem feedGround_printable {ch : UInt8} (lower : 0x20 ≤ ch)
    (upper : ch ≠ 0x7f) (term : Term) : term.feedGround ch = term.putChar ch := by
  have control {code : UInt8} (small : ¬ 0x20 ≤ code) : ch ≠ code := by
    rintro rfl
    exact small lower
  unfold feedGround
  rw [if_neg (control (by decide)), if_neg (control (by decide)),
    if_neg (control (by decide)), if_neg (control (by decide)),
    if_neg (control (by decide)), if_neg (control (by decide)),
    if_pos ⟨lower, upper⟩]

end Term

/-- A digit goes into the current parameter, which it starts if it is the
first. -/
theorem Term.feedDigit_eq {term : Term} (digit : Nat)
    (counted : term.paramCount ≤ maxParams) :
    term.feedDigit digit =
      { term with
        paramCount := max 1 term.paramCount
        params := fun i =>
          if i = max 1 term.paramCount - 1 then
            min (term.params i * 10 + digit) 9999
          else term.params i
        paramSeen := true } := by
  have started : (if term.paramCount = 0 then 1 else term.paramCount) =
      max 1 term.paramCount := by
    split <;> omega
  have room : max 1 term.paramCount ≤ maxParams := by
    have : 1 ≤ maxParams := by decide
    omega
  unfold feedDigit
  dsimp only
  rw [started, if_pos room, readParam_eq (by omega), writeParam_eq _ (by omega)]
  congr 1
  funext i
  grind

end Pspssh.Terminal
