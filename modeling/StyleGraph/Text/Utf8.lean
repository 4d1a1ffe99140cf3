/-!
# UTF-8

Reading bytes as UTF-8, one character at a time. A step either yields a character, or finds a
run of bytes that cannot begin one, or finds the input ending inside one. The strict reader stops
at the first fault and says where it is; the lenient reader puts U+FFFD in place of each faulty
run, where a run is the longest piece that could still have become a character.
-/

set_option autoImplicit false

namespace StyleGraph.Text.Utf8

/-- One reading step. -/
inductive Step
  /-- A character of the given width. -/
  | char (c : Char) (width : Nat)
  /-- A faulty run of the given width. -/
  | bad (width : Nat)
  /-- The input ends inside a character. -/
  | incomplete
  deriving DecidableEq, Repr

/-- A byte that continues a character. -/
def isContinuation (b : UInt8) : Bool := 0x80 ≤ b && b ≤ 0xbf

/-- Six payload bits of a continuation byte. -/
def payload (b : UInt8) : Nat := b.toNat % 64

/-- The bytes allowed right after the lead byte of a three- or four-byte character. -/
def secondOk (lead second : UInt8) : Bool :=
  if lead == 0xe0 then 0xa0 ≤ second && second ≤ 0xbf
  else if lead == 0xed then 0x80 ≤ second && second ≤ 0x9f
  else if lead == 0xf0 then 0x90 ≤ second && second ≤ 0xbf
  else if lead == 0xf4 then 0x80 ≤ second && second ≤ 0x8f
  else isContinuation second

/-- Reads the character at the beginning of a nonempty input. -/
def step (lead : UInt8) (rest : List UInt8) : Step :=
  if lead < 0x80 then .char (Char.ofNat lead.toNat) 1
  else if lead < 0xc2 then .bad 1
  else if lead < 0xe0 then
    match rest with
    | [] => .incomplete
    | b :: _ =>
      if isContinuation b then .char (Char.ofNat ((lead.toNat % 32) * 64 + payload b)) 2
      else .bad 1
  else if lead < 0xf0 then
    match rest with
    | [] => .incomplete
    | b :: rest =>
      if !secondOk lead b then .bad 1
      else
        match rest with
        | [] => .incomplete
        | c :: _ =>
          if isContinuation c then
            .char (Char.ofNat (((lead.toNat % 16) * 64 + payload b) * 64 + payload c)) 3
          else .bad 2
  else if lead < 0xf5 then
    match rest with
    | [] => .incomplete
    | b :: rest =>
      if !secondOk lead b then .bad 1
      else
        match rest with
        | [] => .incomplete
        | c :: rest =>
          if !isContinuation c then .bad 2
          else
            match rest with
            | [] => .incomplete
            | d :: _ =>
              if isContinuation d then
                .char (Char.ofNat ((((lead.toNat % 8) * 64 + payload b) * 64 + payload c) * 64
                  + payload d)) 4
              else .bad 3
  else .bad 1

/-- Where and how a strict reading failed. -/
inductive Fault
  /-- A faulty run of `width` bytes at `index`. -/
  | invalid (width index : Nat)
  /-- The input ends inside the character at `index`. -/
  | incomplete (index : Nat)
  deriving DecidableEq, Repr

/-- The wording of a fault. -/
def Fault.message : Fault → String
  | .invalid width index =>
    "invalid utf-8 sequence of " ++ toString width ++ " bytes from index " ++ toString index
  | .incomplete index => "incomplete utf-8 byte sequence from index " ++ toString index

/-- Strict reading. -/
def decode (bytes : List UInt8) : Except Fault (List Char) :=
  go bytes.length 0 [] bytes
where
  go : Nat → Nat → List Char → List UInt8 → Except Fault (List Char)
    | 0, _, acc, _ => .ok acc.reverse
    | _, _, acc, [] => .ok acc.reverse
    | fuel + 1, index, acc, lead :: rest =>
      match step lead rest with
      | .char c width => go fuel (index + width) (c :: acc) (rest.drop (width - 1))
      | .bad width => .error (.invalid width index)
      | .incomplete => .error (.incomplete index)

/-- Lenient reading. -/
def decodeLossy (bytes : List UInt8) : List Char :=
  go bytes.length bytes
where
  go : Nat → List UInt8 → List Char
    | 0, _ => []
    | _, [] => []
    | fuel + 1, lead :: rest =>
      match step lead rest with
      | .char c width => c :: go fuel (rest.drop (width - 1))
      | .bad width => '\ufffd' :: go fuel (rest.drop (width - 1))
      | .incomplete => ['\ufffd']

/-- The bytes of a text. -/
def encode (cs : List Char) : List UInt8 := cs.flatMap String.utf8EncodeChar

end StyleGraph.Text.Utf8
