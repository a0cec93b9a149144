import UsingStyle.Encoding

/-! # Bytes that are refused

A decoder may refuse bytes instead of replacing what it cannot read. Among the common encodings,
UTF-16 and UTF-32 refuse a text without its byte-order mark, and `undefined` and `idna` refuse every
text. All other common encodings decode every file.
-/

namespace UsingStyle

/-- The codecs decode the encoding with the given name, and refuse the bytes. -/
def Codecs.Refuse (codecs : Codecs) (encoding : String) (bytes : List UInt8) : Prop :=
  ∃ decode refusal, codecs.lookup? encoding = some (.text decode) ∧ decode bytes = .error refusal

namespace Encoding

/-- Bytes that are enough for a byte-order mark, but start with it in neither order. -/
def Unmarked (mark bytes : List UInt8) : Prop :=
  mark.length ≤ bytes.length ∧ bytes.take mark.length ≠ mark ∧
    bytes.take mark.length ≠ mark.reverse

theorem exists_decodeMarked_eq_error_iff {name : String} {mark bytes : List UInt8}
    {decode : ByteOrder → List UInt8 → List Char} :
    (∃ refusal, decodeMarked name mark decode bytes = .error refusal) ↔ Unmarked mark bytes := by
  unfold decodeMarked Unmarked
  by_cases hlittle : bytes.take mark.length = mark
  · rw [if_pos hlittle]
    exact iff_of_false (by simp) fun h => h.2.1 hlittle
  by_cases hbig : bytes.take mark.length = mark.reverse
  · rw [if_neg hlittle, if_pos hbig]
    exact iff_of_false (by simp) fun h => h.2.2 hbig
  rw [if_neg hlittle, if_neg hbig]
  by_cases hlength : mark.length ≤ bytes.length
  · rw [if_pos hlength]
    exact iff_of_true ⟨_, rfl⟩ ⟨hlength, hlittle, hbig⟩
  · rw [if_neg hlength]
    exact iff_of_false (by simp) fun h => hlength h.1

/-- What a common encoding refuses. -/
def Refuses (bytes : List UInt8) : Encoding → Prop
  | utf16 => Unmarked [0xFF, 0xFE] bytes
  | utf32 => Unmarked [0xFF, 0xFE, 0x00, 0x00] bytes
  | undefined | idna => True
  | utf8 | utf8Marked | latin1 | ascii | codePage1252 => False
  | utf16Little | utf16Big | utf32Little | utf32Big => False

theorem exists_decode_eq_error_iff {e : Encoding} {bytes : List UInt8} :
    (∃ refusal, e.decode bytes = .error refusal) ↔ e.Refuses bytes := by
  cases e with
  | utf16 => exact exists_decodeMarked_eq_error_iff
  | utf32 => exact exists_decodeMarked_eq_error_iff
  | undefined => exact iff_of_true ⟨_, rfl⟩ trivial
  | idna => exact iff_of_true ⟨_, rfl⟩ trivial
  | utf8 | utf8Marked | latin1 | ascii | codePage1252 => simp [decode, Refuses]
  | utf16Little | utf16Big | utf32Little | utf32Big => simp [decode, Refuses]

end Encoding

/-- The common codecs refuse what the common encodings refuse. -/
theorem Codecs.common_refuse_iff {encoding : String} {bytes : List UInt8} :
    common.Refuse encoding bytes ↔
      ∃ e, Encoding.lookup? encoding = some (.text e) ∧ e.Refuses bytes := by
  have hlookup : common.lookup? encoding =
      (Encoding.lookup? encoding).map Encoding.Named.codec := rfl
  unfold Refuse
  rw [hlookup]
  rcases Encoding.lookup? encoding with _ | (e | _)
  · simp
  · simp [Encoding.Named.codec, ← Encoding.exists_decode_eq_error_iff]
  · simp [Encoding.Named.codec]

end UsingStyle
