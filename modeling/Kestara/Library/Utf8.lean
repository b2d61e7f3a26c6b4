import Mathlib

/-!
# UTF-8 texts

Encoding of a text and the decoding that never fails: every maximal subpart of an ill-formed
sequence becomes one replacement character.
-/
namespace Utf8

def encode (s : String) : List UInt8 := s.toList.flatMap String.utf8EncodeChar

def replacement : Char := '\uFFFD'

/-- The well-formed second bytes after a lead byte of three or four bytes. -/
def second (lead byte : UInt8) : Bool :=
  if lead = 0xE0 then 0xA0 ≤ byte && byte ≤ 0xBF
  else if lead = 0xED then 0x80 ≤ byte && byte ≤ 0x9F
  else if lead = 0xF0 then 0x90 ≤ byte && byte ≤ 0xBF
  else if lead = 0xF4 then 0x80 ≤ byte && byte ≤ 0x8F
  else 0xE1 ≤ lead && lead ≤ 0xF3 && 0x80 ≤ byte && byte ≤ 0xBF

/-- How many bytes the replacement character stands for at the head of a string that does
not start with a well-formed character. -/
def illFormed : List UInt8 → ℕ
  | lead :: b :: c :: _ =>
    if second lead b then (if 0xF0 ≤ lead && 0x80 ≤ c && c ≤ 0xBF then 3 else 2) else 1
  | [lead,b] => if second lead b then 2 else 1
  | _ => 1

/-- The first character of a byte string and how many bytes it takes. -/
def next (bytes : List UInt8) : Char × ℕ :=
  match ByteArray.utf8DecodeChar? bytes.toByteArray 0 with
  | some c => (c,c.utf8Size)
  | none => (replacement,illFormed bytes)

/-- At most `fuel` characters are read, and every character takes a byte. -/
def decodeChars : ℕ → List UInt8 → List Char
  | 0,_ => []
  | _,[] => []
  | fuel+1,bytes => (next bytes).1 :: decodeChars fuel (bytes.drop (next bytes).2)

def decode (bytes : List UInt8) : String := String.ofList (decodeChars bytes.length bytes)

lemma next_encodeChar (c : Char) (rest : List UInt8) :
    next (String.utf8EncodeChar c ++ rest) = (c,c.utf8Size) := by
  unfold next
  rw [List.toByteArray_append,ByteArray.utf8DecodeChar?_utf8EncodeChar_append]

lemma decodeChars_encode (cs : List Char) (fuel : ℕ)
    (hf : (cs.flatMap String.utf8EncodeChar).length ≤ fuel) :
    decodeChars fuel (cs.flatMap String.utf8EncodeChar) = cs := by
  induction cs generalizing fuel with
  | nil => cases fuel <;> rfl
  | cons c cs ih =>
    rw [List.flatMap_cons] at hf ⊢
    have hc := c.utf8Size_pos
    rw [List.length_append,String.length_utf8EncodeChar] at hf
    obtain ⟨fuel,rfl⟩ : ∃ f, fuel = f+1 := ⟨fuel-1,by omega⟩
    obtain ⟨b,bs,hb⟩ : ∃ b bs, String.utf8EncodeChar c = b :: bs :=
      List.exists_cons_of_ne_nil String.utf8EncodeChar_ne_nil
    have hd : decodeChars (fuel+1) (String.utf8EncodeChar c ++ cs.flatMap String.utf8EncodeChar) =
        (next (String.utf8EncodeChar c ++ cs.flatMap String.utf8EncodeChar)).1 ::
          decodeChars fuel ((String.utf8EncodeChar c ++ cs.flatMap String.utf8EncodeChar).drop
            (next (String.utf8EncodeChar c ++ cs.flatMap String.utf8EncodeChar)).2) := by
      rw [hb]
      rfl
    rw [hd,next_encodeChar,← String.length_utf8EncodeChar,List.drop_left]
    rw [ih fuel (by omega)]

theorem decode_encode (s : String) : decode (encode s) = s := by
  unfold decode encode
  rw [decodeChars_encode _ _ le_rfl,String.ofList_toList]

example : decode [0x61,0xF0,0x90,0x80,0x62] = "a\uFFFDb" := by decide

end Utf8
