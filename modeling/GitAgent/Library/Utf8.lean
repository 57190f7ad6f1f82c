import Mathlib.Data.List.Basic

/-!
# Decoding a stream of UTF-8

A decoder is given the bytes of a text in pieces that may end inside a character, and gives
characters for each (`Utf8.Decoder`). It is faithful if these are together the characters of the
text, however the bytes are cut (`Utf8.Decoder.Faithful`). A decoder that keeps the bytes of a
character until it is complete is faithful (`Utf8.faithful_buffering`).
-/

namespace Utf8

/-- The bytes of a text. -/
def encode (text : List Char) : List UInt8 :=
  text.flatMap String.utf8EncodeChar

theorem encode_append (text text' : List Char) :
  encode (text ++ text') = encode text ++ encode text'
  := List.flatMap_append

/-- The bytes of some texts one after the other. -/
theorem encode_flatMap {α : Type} (f : α → List Char) (xs : List α) :
  encode (xs.flatMap f) = xs.flatMap fun x => encode (f x)
  := List.flatMap_assoc

/-- A character below 128 is one byte. -/
theorem toNat_of_mem_utf8EncodeChar {c : Char} (hc : c.toNat ≤ 127) {b : UInt8}
    (hb : b ∈ String.utf8EncodeChar c) :
  b.toNat = c.toNat
  := by
  have hval : c.val.toNat = c.toNat := rfl
  have hsize : c.utf8Size = 1 := by
    rwa [Char.utf8Size_eq_one_iff, UInt32.le_iff_toNat_le]
  rw [String.utf8EncodeChar_eq_singleton hsize, List.mem_singleton] at hb
  rw [hb, UInt32.toNat_toUInt8]
  omega

/-- A decoder that is called with one piece of the bytes after the other. -/
structure Decoder where
  State : Type
  init : State
  decode : State → List UInt8 → List Char × State

namespace Decoder

variable (D : Decoder)

/-- What is decoded of each of some pieces. -/
def outputs : D.State → List (List UInt8) → List (List Char)
  | _, [] => []
  | s, piece :: pieces => (D.decode s piece).1 :: outputs (D.decode s piece).2 pieces

/-- Of the bytes of a text all its characters are decoded. A mark of the order of bytes at the
beginning is no character. -/
def Faithful : Prop :=
  ∀ (text : List Char) (pieces : List (List UInt8)), text.head? ≠ some '\ufeff' →
    pieces.flatten = encode text → (D.outputs D.init pieces).flatten = text

end Decoder

/-- The characters that are complete after one more byte, and the bytes that are kept. -/
def decodeByte (pending : List UInt8) (b : UInt8) : List Char × List UInt8 :=
  match (pending ++ [b]).toByteArray.utf8DecodeChar? 0 with
  | some c => ([c], [])
  | none => ([], pending ++ [b])

/-- The characters that are complete after some bytes, and the bytes that are kept. -/
def decodeBytes : List UInt8 → List UInt8 → List Char × List UInt8
  | pending, [] => ([], pending)
  | pending, b :: bs =>
      let found := decodeByte pending b
      let more := decodeBytes found.2 bs
      (found.1 ++ more.1, more.2)

/-- The decoder that keeps the bytes of a character until it is complete. -/
def buffering : Decoder where
  State := List UInt8
  init := []
  decode := decodeBytes

theorem decodeBytes_append (pending bs bs' : List UInt8) :
  decodeBytes pending (bs ++ bs') =
    ((decodeBytes pending bs).1 ++ (decodeBytes (decodeBytes pending bs).2 bs').1,
      (decodeBytes (decodeBytes pending bs).2 bs').2)
  := by
  induction bs generalizing pending with
  | nil => rfl
  | cons b bs ih => rw [List.cons_append, decodeBytes, decodeBytes, ih, List.append_assoc]

/-- What is decoded of the pieces is what is decoded of all the bytes. -/
theorem flatten_outputs (pending : List UInt8) (pieces : List (List UInt8)) :
  (buffering.outputs pending pieces).flatten = (decodeBytes pending pieces.flatten).1
  := by
  induction pieces generalizing pending with
  | nil => rfl
  | cons piece pieces ih =>
      change (decodeBytes pending piece).1 ++
        (buffering.outputs (decodeBytes pending piece).2 pieces).flatten = _
      rw [ih, List.flatten_cons, decodeBytes_append]

/-- No character is complete before its last byte. -/
theorem decode_incomplete {c : Char} {bs more : List UInt8}
    (h : String.utf8EncodeChar c = bs ++ more) (hmore : more ≠ []) :
  bs.toByteArray.utf8DecodeChar? 0 = none
  := by
  rw [Option.eq_none_iff_forall_ne_some]
  intro c' hc'
  have hc : (String.utf8EncodeChar c).toByteArray.utf8DecodeChar? 0 = some c := by
    have := ByteArray.utf8DecodeChar?_utf8EncodeChar_append (b := ByteArray.empty) (c := c)
    rwa [ByteArray.append_empty] at this
  rw [h, List.toByteArray_append, ByteArray.utf8DecodeChar?_append_eq_some hc'] at hc
  obtain rfl := Option.some.inj hc
  have hle := ByteArray.le_size_of_utf8DecodeChar?_eq_some hc'
  have hlen := congrArg List.length h
  rw [String.length_utf8EncodeChar, List.length_append] at hlen
  have := List.length_pos_of_ne_nil hmore
  rw [List.size_toByteArray] at hle
  omega

/-- The bytes of a character give the character. -/
theorem decodeBytes_char {c : Char} {pending bs : List UInt8} (hbs : bs ≠ [])
    (h : String.utf8EncodeChar c = pending ++ bs) :
  decodeBytes pending bs = ([c], [])
  := by
  induction bs generalizing pending with
  | nil => contradiction
  | cons b bs ih =>
      rw [List.append_cons] at h
      rw [decodeBytes, decodeByte]
      by_cases hnil : bs = []
      · subst hnil
        rw [List.append_nil] at h
        have hc : (String.utf8EncodeChar c).toByteArray.utf8DecodeChar? 0 = some c := by
          have := ByteArray.utf8DecodeChar?_utf8EncodeChar_append (b := ByteArray.empty) (c := c)
          rwa [ByteArray.append_empty] at this
        rw [← h, hc]
        rfl
      · rw [decode_incomplete h hnil, ih hnil h]
        rfl

theorem decodeBytes_encode (text : List Char) :
  decodeBytes [] (encode text) = (text, [])
  := by
  induction text with
  | nil => rfl
  | cons c text ih =>
      rw [encode, List.flatMap_cons, decodeBytes_append,
        decodeBytes_char String.utf8EncodeChar_ne_nil (List.nil_append _).symm, ← encode, ih]
      rfl

/-- **Keeping the bytes of a character until it is complete is faithful.** -/
theorem faithful_buffering :
  buffering.Faithful
  := by
  intro text pieces _ h
  rw [show buffering.init = [] from rfl, flatten_outputs, h, decodeBytes_encode]

end Utf8
