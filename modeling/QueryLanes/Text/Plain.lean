/-!
# Plain text

What is left of a text for an output that is no terminal: the control sequences that a terminal
would obey are left out, and so are control characters other than those of layout. `Place` says
where in a sequence the reading stands.

- `text_eq_self`: a text of characters that show as themselves is left as it is.
-/

namespace QueryLanes.Plain

/-- Where in a control sequence the reading of a text stands. -/
inductive Place where
  /-- Outside of any sequence. -/
  | ground
  /-- After an escape. -/
  | escape
  /-- After an escape and intermediate characters. -/
  | designation
  /-- In a sequence that `ESC [` introduces. -/
  | control
  /-- After `ESC P`, which introduces a device string. -/
  | device
  | deviceParameters
  | deviceIntermediates
  /-- In a string that the byte 0x9C ends, be it a part of a longer character. -/
  | data
  /-- In a command to the operating system, which `ESC ]` introduces and a bell ends. -/
  | command
deriving DecidableEq, Repr

namespace Place

/-- The place after a character that is not kept. Cancelling leaves any sequence, and an escape
begins a new one. -/
def next (p : Place) (c : Char) : Place :=
  let within (a b : Nat) : Bool := a ≤ c.toNat && c.toNat ≤ b
  if c = '\x18' || c = '\x1a' then ground
  else if c = '\x1b' then escape
  else match p with
    | ground => ground
    | escape =>
      if c = '[' then control
      else if c = ']' then command
      else if c = 'P' then device
      else if c = 'X' || c = '^' || c = '_' then data
      else if within 0x20 0x2F then designation
      else if within 0x30 0x7E then ground
      else p
    | designation => if within 0x30 0x7E then ground else p
    | control => if within 0x40 0x7E then ground else p
    | device =>
      if within 0x20 0x2F then deviceIntermediates
      else if within 0x30 0x3F then deviceParameters
      else if within 0x40 0x7E then data
      else p
    | deviceParameters =>
      if within 0x20 0x2F then deviceIntermediates
      else if within 0x3C 0x7E then data
      else p
    | deviceIntermediates => if within 0x30 0x7E then data else p
    | data => if (String.utf8EncodeChar c).contains 0x9C then ground else p
    | command => if c = '\x07' then ground else p

/-- Whether control characters take effect at a place, instead of being part of a string. -/
def obeys : Place → Bool
  | ground | escape | designation | control => true
  | _ => false

/-- The controls that lay text out: tab, newline, form feed and carriage return. -/
def isLayout (c : Char) : Bool := c = '\t' || c = '\n' || c = '\x0c' || c = '\r'

/-- Whether a character shows at a place: layout where controls take effect, and outside of
sequences all that is no control of one byte. -/
def shows (p : Place) (c : Char) : Bool :=
  (isLayout c && p.obeys) || (p = ground && 0x20 ≤ c.toNat && c.toNat ≠ 0x7F)

end Place

/-- Once something shows, what follows shows as it would outside of sequences, up to a character
that does not; there a sequence that layout has interrupted goes on. -/
structure Reading where
  place : Place := .ground
  showing : Bool := false
deriving DecidableEq, Repr

namespace Reading

def keeps (r : Reading) (c : Char) : Bool :=
  (if r.showing then Place.ground else r.place).shows c

/-- The reading after a character. A character of several bytes that shows ends a sequence that was
interrupted. -/
def past (r : Reading) (c : Char) : Reading :=
  if r.keeps c then ⟨if c.toNat < 0x80 then r.place else .ground, true⟩
  else ⟨r.place.next c, false⟩

/-- The characters that are kept. -/
def strip (r : Reading) : List Char → List Char
  | [] => []
  | c :: cs => if r.keeps c then c :: (r.past c).strip cs else (r.past c).strip cs

theorem strip_eq_self {r : Reading} (hr : r.place = .ground) {cs : List Char}
    (h : ∀ c ∈ cs, Place.ground.shows c) : r.strip cs = cs := by
  induction cs generalizing r with
  | nil => rfl
  | cons c cs ih =>
    have hc : r.keeps c = true := by
      have := h c List.mem_cons_self
      simpa [keeps, hr] using this
    have hp : (r.past c).place = .ground := by simp [past, hc, hr]
    rw [strip, if_pos hc, ih hp fun d hd => h d (List.mem_cons_of_mem c hd)]

end Reading

/-- A text without control sequences. -/
def text (s : String) : String := String.ofList (({} : Reading).strip s.toList)

theorem text_eq_self {s : String} (h : ∀ c ∈ s.toList, Place.ground.shows c) : text s = s := by
  rw [text, Reading.strip_eq_self rfl h, String.ofList_toList]

end QueryLanes.Plain
