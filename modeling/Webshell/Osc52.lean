import Webshell.Base64
import Webshell.CellPacket
import Webshell.JsValue
import Webshell.ProgramStatus
import Webshell.Scanner
import Webshell.Search

/-!
# Clipboard writes in the output

A program copies by an OSC 52 sequence, which may come in any number of pieces.
What is not complete waits for the next piece.
-/

namespace Webshell

/-! ## Decoders of the platform -/

/-- `new TextDecoder("latin1")` reads windows-1252. -/
def latin1Unit (b : UInt8) : UInt16 :=
  if b < 0x80 ∨ 0xa0 ≤ b then b.toUInt16
  else
    [0x20ac, 0x81, 0x201a, 0x192, 0x201e, 0x2026, 0x2020, 0x2021, 0x2c6, 0x2030, 0x160, 0x2039, 0x152, 0x8d, 0x17d, 0x8f,
      0x90, 0x2018, 0x2019, 0x201c, 0x201d, 0x2022, 0x2013, 0x2014, 0x2dc, 0x2122, 0x161, 0x203a, 0x153, 0x9d, 0x17e,
      0x178].getD (b.toNat - 0x80) 0

/-- How many of the bytes go on with a character of which `need` are due; the next one is in the range. -/
def tailLength (low high : UInt8) : Nat → Bytes → Nat
  | 0, _ => 0
  | _ + 1, [] => 0
  | need + 1, b :: rest => if low ≤ b ∧ b ≤ high then tailLength 0x80 0xbf need rest + 1 else 0

def utf8CodePoints : Nat → Bytes → List Char
  | 0, _ => []
  | _ + 1, [] => []
  | fuel + 1, b :: rest =>
    match runeStart b with
    | none => (if b < 0x80 then Char.ofNat b.toNat else '\ufffd') :: utf8CodePoints fuel rest
    | some (size, low, high) =>
      let taken := tailLength low high (size - 1) rest
      (if taken = size - 1 then decodeRune (b :: rest) size else '\ufffd') :: utf8CodePoints fuel (rest.drop taken)

def charUnits (c : Char) : Utf16 :=
  if c.toNat < 0x10000 then [UInt16.ofNat c.toNat]
  else [UInt16.ofNat (0xd800 + (c.toNat - 0x10000) / 0x400), UInt16.ofNat (0xdc00 + (c.toNat - 0x10000) % 0x400)]

/-- `new TextDecoder("utf-8", { fatal: false })`. -/
def textDecoderUtf8 (data : Bytes) : Utf16 :=
  let data := if [0xef, 0xbb, 0xbf].isPrefixOf data then data.drop 3 else data
  (utf8CodePoints data.length data).flatMap charUnits

/-! ## The consumer -/

def defaultMaxPending : Nat := 1024 * 1024
def defaultMaxDecoded : Nat := 1024 * 1024
def osc52Start : Utf16 := [0x1b, 0x5d, 0x35, 0x32, 0x3b]

def BEL : Utf16 := [0x07]
def ST : Utf16 := [0x1b, 0x5c]

inductive OscChunk
  | text (units : Utf16)
  /-- A `Uint8Array` or an `ArrayBuffer`. -/
  | bytes (data : Bytes)
  | other

def chunkText : OscChunk → Utf16
  | .text units => units
  | .bytes data => data.map latin1Unit
  | .other => []

/-- From the longest suffix of at most `size` units down. -/
def retainFrom (buffer : Utf16) : Nat → Utf16
  | 0 => []
  | size + 1 =>
    let suffix := buffer.drop (buffer.length - (size + 1))
    if suffix.isPrefixOf osc52Start then suffix else retainFrom buffer size

def retainIncompletePrefix (buffer : Utf16) : Utf16 := retainFrom buffer (min osc52Start.length buffer.length)

/-- A surrogate is no character that counts here. -/
def unitChar (unit : UInt16) : Char := Char.ofNat unit.toNat

/-- `/^[A-Za-z0-9+/]*={0,2}$/`. -/
def isPaddedBase64 (text : List Char) : Bool :=
  let digits := text.rdropWhile (· = '=')
  digits.all (fun c => (Base64.value c).isSome) && text.length - digits.length ≤ 2

def decodeBase64Utf8 (payload : Utf16) (maxDecoded : Nat) : Utf16 :=
  let cleaned := (payload.map unitChar).filter fun c => !Js.isSpace c
  if cleaned = [] ∨ cleaned = ['?'] then []
  else
    let padded := cleaned ++ List.replicate ((4 - cleaned.length % 4) % 4) '='
    if isPaddedBase64 padded = false then []
    else
      match Base64.atob padded with
      | none => []
      | some binary => if binary = [] ∨ maxDecoded < binary.length then [] else textDecoderUtf8 binary

def decodeOsc52Body (body : Utf16) (maxDecoded : Nat) : Utf16 :=
  match Search.indexOf [0x3b] body with
  | none => []
  | some separator => decodeBase64Utf8 (body.drop (separator + 1)) maxDecoded

/-- Where the body ends, and the length of the terminator. -/
def osc52End (rest : Utf16) : Option (Nat × Nat) :=
  match Search.indexOf BEL rest, Search.indexOf ST rest with
  | some bel, none => some (bel, 1)
  | some bel, some st => if bel ≤ st then some (bel, 1) else some (st, 2)
  | none, some st => some (st, 2)
  | none, none => none

structure Osc52Consumed where
  pending : Utf16
  writes : List Utf16
  deriving DecidableEq

/-- What a body puts on the clipboard: a text that is not empty. -/
def bodyWrite (maxDecoded : Nat) (body : Utf16) : Option Utf16 :=
  if decodeOsc52Body body maxDecoded = [] then none else some (decodeOsc52Body body maxDecoded)

/-- The loop. -/
def consumeLoop (maxPending maxDecoded : Nat) : Nat → Utf16 → List Utf16 → Osc52Consumed
  | 0, buffer, writes => ⟨buffer, writes⟩
  | fuel + 1, buffer, writes =>
    if buffer = [] then ⟨[], writes⟩
    else
      match Search.indexOf osc52Start buffer with
      | none => ⟨retainIncompletePrefix buffer, writes⟩
      | some start =>
        let bodyStart := start + osc52Start.length
        match osc52End (buffer.drop bodyStart) with
        | none => ⟨if maxPending < (buffer.drop start).length then [] else buffer.drop start, writes⟩
        | some (stop, terminatorLength) =>
          consumeLoop maxPending maxDecoded fuel (buffer.drop (bodyStart + stop + terminatorLength))
            (writes ++ (bodyWrite maxDecoded ((buffer.drop bodyStart).take stop)).toList)

def consumeTerminalOsc52Chunk (pending : Utf16) (chunk : OscChunk) (maxPending : Nat := defaultMaxPending)
    (maxDecoded : Nat := defaultMaxDecoded) : Osc52Consumed :=
  let buffer := pending ++ chunkText chunk
  let buffer := if maxPending < buffer.length then buffer.drop (buffer.length - maxPending) else buffer
  consumeLoop maxPending maxDecoded (buffer.length + 1) buffer []

/-- One chunk after the other, each behind what the one before has left. -/
def consumeChunks (maxPending maxDecoded : Nat) (chunks : List OscChunk) : Osc52Consumed :=
  chunks.foldl (fun consumed chunk =>
    let next := consumeTerminalOsc52Chunk consumed.pending chunk maxPending maxDecoded
    ⟨next.pending, consumed.writes ++ next.writes⟩) ⟨[], []⟩

def osc52Text (text : String) : Utf16 := text.toList.flatMap charUnits

example : consumeChunks 64 64 [.text (osc52Text "a\x1b]52;c;aGk"), .text (osc52Text "=\x07b\x1b]5")] =
    ⟨osc52Text "\x1b]5", [osc52Text "hi"]⟩ := by decide +kernel

end Webshell
