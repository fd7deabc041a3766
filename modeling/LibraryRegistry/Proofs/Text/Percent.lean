import LibraryRegistry.Proofs.Text.Ascii
import LibraryRegistry.Text.Percent

/-!
# Laws of percent coding

A byte can be coded in more ways than one: as itself if it is printable and no percent sign, or as
an escape with hexadecimal digits of either case. Reading gives back the bytes whichever ways were
taken, and writing takes one of them.

* `CodesByte`, `Codes` — the codings of a byte and of bytes
* `Codes.percentDecode` — every coding is read back
* `codes_flatMap_percentByte` — what is written is one of them
-/

namespace LibraryRegistry.Text

/-! ## Codings -/

/-- A coding of a byte: itself if it is printable and no percent sign, or an escape. -/
inductive CodesByte (b : UInt8) : List Char → Prop
  | plain : 0x20 ≤ b → b ≤ 0x7E → b ≠ 0x25 → CodesByte b [Char.ofNat b.toNat]
  | escape {high low : Char} : hexValue? high = some (b.toNat / 16) →
      hexValue? low = some (b.toNat % 16) → CodesByte b ['%', high, low]

/-- A coding of bytes, each of them in any way. -/
inductive Codes : List UInt8 → List Char → Prop
  | nil : Codes [] []
  | cons {b : UInt8} {bytes : List UInt8} {cs rest : List Char} :
      CodesByte b cs → Codes bytes rest → Codes (b :: bytes) (cs ++ rest)

theorem CodesByte.ascii {b : UInt8} {cs : List Char} (h : CodesByte b cs) :
    ∀ c ∈ cs, c.toNat < 128 := by
  intro c hc
  cases h with
  | plain _ hle _ =>
    have hlt : b.toNat < 128 := Nat.lt_of_le_of_lt (UInt8.le_iff_toNat_le.1 hle) (by decide)
    rw [List.mem_singleton.1 hc, toNat_ofNat_ascii hlt]
    exact hlt
  | escape hhigh hlow =>
    simp only [List.mem_cons, List.not_mem_nil, or_false] at hc
    rcases hc with rfl | rfl | rfl
    · decide
    · exact toNat_lt_of_hexValue? hhigh
    · exact toNat_lt_of_hexValue? hlow

theorem Codes.ascii {bytes : List UInt8} {cs : List Char} (h : Codes bytes cs) :
    ∀ c ∈ cs, c.toNat < 128 := by
  induction h with
  | nil => exact fun _ hc => nomatch hc
  | cons hbyte _ ih =>
    intro c hc
    rcases List.mem_append.1 hc with hc | hc
    · exact hbyte.ascii c hc
    · exact ih c hc

/-! ## Reading -/

/-- A byte that begins no escape stands for itself. -/
theorem percentDecode_of_ne {b : UInt8} (h : b ≠ 0x25) :
    ∀ rest : List UInt8, percentDecode (b :: rest) = b :: percentDecode rest
  | [] => rfl
  | [_] => rfl
  | _ :: _ :: _ => by rw [percentDecode, if_neg h]

/-- An escape stands for the byte with its two digits. -/
theorem percentDecode_escape {high low b : UInt8} (h : hexByte? high low = some b)
    (rest : List UInt8) :
    percentDecode (0x25 :: high :: low :: rest) = b :: percentDecode rest := by
  rw [percentDecode, if_pos rfl, h]

theorem byteHexValue?_asciiByte {c : Char} {n : Nat} (h : hexValue? c = some n) :
    byteHexValue? (asciiByte c) = some n := by
  rw [byteHexValue?, ofNat_toNat_asciiByte (toNat_lt_of_hexValue? h), h]

/-- **A coded byte is read back.** -/
theorem CodesByte.percentDecode {b : UInt8} {cs : List Char} (h : CodesByte b cs)
    (rest : List UInt8) :
    Text.percentDecode (cs.map asciiByte ++ rest) = b :: Text.percentDecode rest := by
  cases h with
  | plain _ hle hne =>
    have hlt : b.toNat < 128 := Nat.lt_of_le_of_lt (UInt8.le_iff_toNat_le.1 hle) (by decide)
    rw [List.map_singleton, asciiByte_ofNat hlt]
    exact percentDecode_of_ne hne rest
  | @escape high low hhigh hlow =>
    have hbyte : hexByte? (asciiByte high) (asciiByte low) = some b := by
      rw [hexByte?, byteHexValue?_asciiByte hhigh, byteHexValue?_asciiByte hlow]
      -- The two digits are those of the byte in base sixteen.
      show some (UInt8.ofNat (16 * (b.toNat / 16) + b.toNat % 16)) = some b
      rw [Nat.div_add_mod, UInt8.ofNat_toNat]
    exact percentDecode_escape hbyte rest

/-- **Coded bytes are read back, in whichever way each of them was coded.** -/
theorem Codes.percentDecode {bytes : List UInt8} {cs : List Char} (h : Codes bytes cs) :
    Text.percentDecode (utf8 (String.ofList cs)) = bytes := by
  rw [utf8_ofList_ascii cs h.ascii]
  induction h with
  | nil => rfl
  | cons hbyte _ ih => rw [List.map_append, hbyte.percentDecode, ih]

/-! ## Writing -/

theorem hexValue?_digitChar {n : Nat} (h : n < 16) :
    hexValue? (Nat.digitChar n).toUpper = some n := by
  have hall : ∀ d ∈ List.range 16, hexValue? (Nat.digitChar d).toUpper = some d := by decide
  exact hall n (List.mem_range.2 h)

theorem codesByte_percentByte (b : UInt8) : CodesByte b (percentByte b) := by
  have hb : b.toNat < 256 := b.toNat_lt
  rw [percentByte]
  split
  · exact CodesByte.escape (hexValue?_digitChar (by omega)) (hexValue?_digitChar (by omega))
  · next h =>
    simp only [isReservedByte, Bool.or_eq_true, decide_eq_true_eq, not_or,
      UInt8.lt_iff_toNat_lt] at h
    obtain ⟨⟨hlow, hhigh⟩, hmarks⟩ := h
    have hge : ¬ b.toNat < 33 := hlow
    refine CodesByte.plain ?_ (UInt8.le_iff_toNat_le.2 (Nat.not_lt.1 hhigh)) ?_
    · exact UInt8.le_iff_toNat_le.2 (show 32 ≤ b.toNat by omega)
    · rintro rfl
      exact hmarks (by decide)

theorem codes_flatMap_percentByte : ∀ bytes : List UInt8, Codes bytes (bytes.flatMap percentByte)
  | [] => Codes.nil
  | b :: bytes => Codes.cons (codesByte_percentByte b) (codes_flatMap_percentByte bytes)

end LibraryRegistry.Text
