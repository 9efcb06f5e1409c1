import Bundler.Text.CharacterName
import Bundler.Text.Quoted

/-!
# UTF-8

Decoding either gives a text or names the first bytes that no text is encoded by. Encoding fails at the
first characters that stand in for lone surrogates.
-/

namespace Bundler.Text.Utf8

inductive Reason
  | start
  | continuation
  | truncated
  deriving DecidableEq, Repr

/-- The bytes from `position` on, `count` of them, do not encode a character. -/
structure Fault where
  reason : Reason
  position : Nat
  count : Nat
  byte : UInt8
  deriving DecidableEq, Repr

def Reason.message : Reason → String
  | .start => "invalid start byte"
  | .continuation => "invalid continuation byte"
  | .truncated => "unexpected end of data"

def Fault.message (fault : Fault) : String :=
  let place :=
    if fault.count = 1 then
      s!"byte 0x{String.ofList (hexDigits 2 fault.byte.toNat)} in position {fault.position}"
    else s!"bytes in position {fault.position}-{fault.position + fault.count - 1}"
  s!"'utf-8' codec can't decode {place}: {fault.reason.message}"

/-- The number of bytes of a character with this first byte; none starts with any other byte. -/
def lengthAt? (lead : UInt8) : Option Nat :=
  if lead < 0x80 then some 1
  else if lead < 0xC2 then none
  else if lead < 0xE0 then some 2
  else if lead < 0xF0 then some 3
  else if lead < 0xF5 then some 4
  else none

/-- The least and the greatest second byte after a first one: overlong forms, surrogates and code
points beyond the last are excluded here. -/
def secondRange (lead : UInt8) : UInt8 × UInt8 :=
  if lead = 0xE0 then (0xA0, 0xBF)
  else if lead = 0xED then (0x80, 0x9F)
  else if lead = 0xF0 then (0x90, 0xBF)
  else if lead = 0xF4 then (0x80, 0x8F)
  else (0x80, 0xBF)

/-- How many of the next bytes continue a character, at most `wanted`; the first is held to a range
of its own. -/
def continuing : Nat → UInt8 × UInt8 → List UInt8 → Nat
  | 0, _, _ => 0
  | _ + 1, _, [] => 0
  | wanted + 1, (least, greatest), byte :: rest =>
    if least ≤ byte ∧ byte ≤ greatest then continuing wanted (0x80, 0xBF) rest + 1 else 0

/-- The first fault in a sequence of bytes that starts at a position; `skip` bytes belong to a
character already seen. -/
def firstFault : Nat → Nat → List UInt8 → Option Fault
  | _, _, [] => none
  | position, skip + 1, _ :: rest => firstFault (position + 1) skip rest
  | position, 0, byte :: rest =>
    match lengthAt? byte with
    | none => some ⟨.start, position, 1, byte⟩
    | some length =>
      let good := continuing (length - 1) (secondRange byte) rest
      if good = length - 1 then firstFault (position + 1) good rest
      else if good = rest.length then some ⟨.truncated, position, good + 1, byte⟩
      else some ⟨.continuation, position, good + 1, byte⟩

def decode (bytes : ByteArray) : Except Fault String :=
  match String.fromUTF8? bytes with
  | some text => .ok text
  | none => .error ((firstFault 0 0 bytes.toList).getD ⟨.truncated, bytes.size, 1, 0⟩)

theorem decode_toUTF8 (text : String) : decode text.toUTF8 = .ok text := by
  have hvalid : text.toUTF8.IsValidUTF8 := text.isValidUTF8
  rw [decode, String.fromUTF8?, dif_pos hvalid]
  rfl

/-- The characters from `position` on, `count` of them, stand in for surrogates, the first one for
`surrogate`. -/
structure EncodeFault where
  surrogate : Nat
  position : Nat
  count : Nat
  deriving DecidableEq, Repr

def EncodeFault.message (fault : EncodeFault) : String :=
  let place :=
    if fault.count = 1 then
      s!"character '\\u{String.ofList (hexDigits 4 fault.surrogate)}' in position {fault.position}"
    else s!"characters in position {fault.position}-{fault.position + fault.count - 1}"
  s!"'utf-8' codec can't encode {place}: surrogates not allowed"

/-- The first characters of a text that stand in for surrogates; the text starts at a position. -/
def firstStandIn? (position : Nat) : List Char → Option EncodeFault
  | [] => none
  | c :: rest =>
    match surrogateOf? c with
    | some surrogate => some ⟨surrogate, position, (rest.takeWhile (surrogateOf? · |>.isSome)).length + 1⟩
    | none => firstStandIn? (position + 1) rest

theorem firstStandIn?_eq_none_iff {text : List Char} {position : Nat} :
    firstStandIn? position text = none ↔ ∀ c ∈ text, surrogateOf? c = none := by
  induction text generalizing position with
  | nil => simp [firstStandIn?]
  | cons c rest ih =>
    rw [firstStandIn?, List.forall_mem_cons]
    cases hstand : surrogateOf? c with
    | none => simp [ih]
    | some surrogate => simp

def encode (text : String) : Except EncodeFault ByteArray :=
  match firstStandIn? 0 text.toList with
  | some fault => .error fault
  | none => .ok text.toUTF8

end Bundler.Text.Utf8
