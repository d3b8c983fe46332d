import ImageDerivative.Bytes

/-! Text in UTF-8 bytes. The lossy reading never fails: each longest run of bytes
that begins a character but cannot be completed becomes one replacement
character. The decoder is a state machine folded over the bytes, so reading a
concatenation is reading the second part from the state the first one left. -/
namespace ImageDerivative.Utf8

/-- A character of several bytes, part of which has been read. -/
structure Partial where
  /-- The bits read so far. -/
  value : Nat
  /-- How many bytes are still to come, less one. -/
  later : Nat
  /-- The least and greatest byte that may come next. -/
  low : UInt8
  high : UInt8
  deriving DecidableEq, Repr

/-- What a first byte of 0x80 or more announces. The narrowed ranges keep out
overlong forms, surrogates and numbers past U+10FFFF. -/
def Partial.ofLead? (b : UInt8) : Option Partial :=
  if b < 0xC2 then none
  else if b < 0xE0 then some ⟨b.toNat - 0xC0, 0, 0x80, 0xBF⟩
  else if b < 0xF0 then
    some ⟨b.toNat - 0xE0, 1, if b = 0xE0 then 0xA0 else 0x80, if b = 0xED then 0x9F else 0xBF⟩
  else if b < 0xF5 then
    some ⟨b.toNat - 0xF0, 2, if b = 0xF0 then 0x90 else 0x80, if b = 0xF4 then 0x8F else 0xBF⟩
  else none

def Partial.accepts (p : Partial) (b : UInt8) : Bool := p.low ≤ b && b ≤ p.high

def Partial.extend (p : Partial) (b : UInt8) : Nat := p.value * 64 + (b.toNat - 0x80)

/-- The decoder's state: the text read so far and the character under way. -/
structure Decoder where
  text : String := ""
  pending : Option Partial := none

def Decoder.start (text : String) (b : UInt8) : Decoder :=
  if b < 0x80 then ⟨text.push (Char.ofNat b.toNat), none⟩
  else match Partial.ofLead? b with
    | some p => ⟨text, some p⟩
    | none => ⟨text.push '\uFFFD', none⟩

def Decoder.step (d : Decoder) (b : UInt8) : Decoder :=
  match d.pending with
  | none => start d.text b
  | some p =>
    if p.accepts b then
      match p.later with
      | 0 => ⟨d.text.push (Char.ofNat (p.extend b)), none⟩
      | later + 1 => ⟨d.text, some ⟨p.extend b, later, 0x80, 0xBF⟩⟩
    else start (d.text.push '\uFFFD') b

def Decoder.finish (d : Decoder) : String :=
  if d.pending.isSome then d.text.push '\uFFFD' else d.text

/-- The text of `bytes`, with a replacement character for whatever is not UTF-8. -/
def decodeLossy (bytes : Bytes) : String := (bytes.foldl Decoder.step {}).finish

def decode? (bytes : Bytes) : Option String := String.fromUTF8? ⟨bytes.toArray⟩

end ImageDerivative.Utf8
