import CellMachine.Proofs.Texts

/-!
# The glyphs of bytes

Bytes are read as characters wherever an encoded character begins, and byte by byte
elsewhere. `Glyph.Reads` says so as a relation between bytes and texts, with the encoding
of characters taken from the library. It has exactly one text for every sequence of bytes,
and that is the one `Text.ofByteArray` gives (`Text.reads_ofByteArray_iff`).

The one fact about the encoding itself is that a character is found at the front of a
sequence exactly if the sequence goes on from its encoding (`Glyph.lead?_eq_some_iff`). It
is shown on numbers: a byte is its payload and a constant, and the payloads are the digits
of the code point to base 64.
-/

set_option autoImplicit false

namespace CellMachine

namespace Glyph

/-! ## One character -/

theorem byte_eq_ofNat_iff {b : UInt8} {n : Nat} (hn : n < 256) :
    b = UInt8.ofNat n ↔ b.toNat = n := by
  rw [← UInt8.toNat_inj, UInt8.toNat_ofNat_of_lt' hn]

/-- A continuation byte is a payload of six bits and `0x80`. -/
theorem continuation?_eq_some_iff {b : UInt8} {x : Nat} :
    continuation? b = some x ↔ x < 0x40 ∧ b = UInt8.ofNat (x + 0x80) := by
  simp only [continuation?, UInt8.le_iff_toNat_le, UInt8.lt_iff_toNat_lt, UInt8.reduceToNat]
  constructor
  · intro h
    obtain ⟨hrange, hx⟩ := Option.ite_none_right_eq_some.1 h
    obtain rfl := Option.some.inj hx
    refine ⟨by omega, ?_⟩
    rw [byte_eq_ofNat_iff (by omega)]
    omega
  · rintro ⟨hx, hb⟩
    rw [byte_eq_ofNat_iff (by omega)] at hb
    rw [if_pos (by omega), Option.some.injEq]
    omega

/-- A code point that is not too small gives the character that has it, if there is one. -/
theorem scalar?_eq_some_iff {least n : Nat} {c : Char} :
    scalar? least n = some c ↔ least ≤ n ∧ c.toNat = n := by
  rw [scalar?]
  constructor
  · intro h
    obtain ⟨⟨hleast, hvalid⟩, hc⟩ := Option.ite_none_right_eq_some.1 h
    obtain rfl := Option.some.inj hc
    refine ⟨hleast, ?_⟩
    rw [Char.ofNat, dif_pos hvalid]
    rfl
  · rintro ⟨hleast, rfl⟩
    rw [if_pos ⟨hleast, c.valid⟩, Char.ofNat_toNat]

/-- The library's encoding, with the payloads as quotients and remainders. -/
theorem encode_eq (c : Char) :
    String.utf8EncodeChar c =
      if c.toNat < 0x80 then [UInt8.ofNat c.toNat]
      else if c.toNat < 0x800 then
        [UInt8.ofNat (c.toNat / 0x40 + 0xc0), UInt8.ofNat (c.toNat % 0x40 + 0x80)]
      else if c.toNat < 0x10000 then
        [UInt8.ofNat (c.toNat / 0x1000 + 0xe0), UInt8.ofNat (c.toNat / 0x40 % 0x40 + 0x80),
          UInt8.ofNat (c.toNat % 0x40 + 0x80)]
      else
        [UInt8.ofNat (c.toNat / 0x40000 + 0xf0), UInt8.ofNat (c.toNat / 0x1000 % 0x40 + 0x80),
          UInt8.ofNat (c.toNat / 0x40 % 0x40 + 0x80), UInt8.ofNat (c.toNat % 0x40 + 0x80)] := by
  have hvalid : c.toNat < 0xd800 ∨ 0xdfff < c.toNat ∧ c.toNat < 0x110000 := c.valid
  rw [String.utf8EncodeChar, show c.val.toNat = c.toNat from rfl]
  have hone : c.toNat ≤ 127 ↔ c.toNat < 0x80 := Nat.lt_succ_iff.symm
  have htwo : c.toNat ≤ 2047 ↔ c.toNat < 0x800 := Nat.lt_succ_iff.symm
  have hthree : c.toNat ≤ 65535 ↔ c.toNat < 0x10000 := Nat.lt_succ_iff.symm
  simp only [hone, htwo, hthree]
  -- the library also masks the payload of the first byte, which is in range already
  split
  · rfl
  · split
    · rw [Nat.mod_eq_of_lt (show c.toNat / 64 < 32 by omega)]
    · split
      · rw [Nat.mod_eq_of_lt (show c.toNat / 4096 < 16 by omega)]
      · rw [Nat.mod_eq_of_lt (show c.toNat / 262144 < 8 by omega)]

section Lead

variable {b : UInt8} {bs rest tail : List UInt8} {c : Char}

theorem lead?_one (h : b.toNat < 0x80) :
    lead? (b :: rest) = some (c, tail) ↔ c.toNat = b.toNat ∧ rest = tail := by
  have hscalar : scalar? 0 b.toNat = some (Char.ofNat b.toNat) :=
    if_pos ⟨Nat.zero_le _, Or.inl (by omega)⟩
  have hchar : Char.ofNat b.toNat = c ↔ c.toNat = b.toNat := by
    rw [← Option.some.injEq, ← hscalar, scalar?_eq_some_iff]
    simp
  simp only [lead?, UInt8.lt_iff_toNat_lt, UInt8.reduceToNat, h, if_true, Option.some.injEq,
    Prod.mk.injEq, hchar]

theorem lead?_two (h : 0xc0 ≤ b.toNat) (h' : b.toNat < 0xe0) :
    lead? (b :: rest) = some (c, tail) ↔
      ∃ x₁ < 0x40, rest = UInt8.ofNat (x₁ + 0x80) :: tail ∧
        0x80 ≤ c.toNat ∧ c.toNat = (b.toNat - 0xc0) * 0x40 + x₁ := by
  simp only [lead?, UInt8.lt_iff_toNat_lt, UInt8.reduceToNat]
  rw [if_neg (by omega), if_neg (by omega), if_pos h']
  cases rest with
  | nil => simp
  | cons b₁ rest =>
    simp only [Option.bind_eq_bind, Option.bind_eq_some_iff, continuation?_eq_some_iff,
      scalar?_eq_some_iff, Option.some.injEq, Prod.mk.injEq, List.cons.injEq]
    constructor
    · rintro ⟨x₁, ⟨hx₁, rfl⟩, _, ⟨hlow, hc⟩, rfl, rfl⟩
      exact ⟨x₁, hx₁, ⟨rfl, rfl⟩, hc ▸ hlow, hc⟩
    · rintro ⟨x₁, hx₁, ⟨rfl, rfl⟩, hlow, hc⟩
      exact ⟨x₁, ⟨hx₁, rfl⟩, c, ⟨hc ▸ hlow, hc⟩, rfl, rfl⟩

theorem lead?_three (h : 0xe0 ≤ b.toNat) (h' : b.toNat < 0xf0) :
    lead? (b :: rest) = some (c, tail) ↔
      ∃ x₁ < 0x40, ∃ x₂ < 0x40,
        rest = UInt8.ofNat (x₁ + 0x80) :: UInt8.ofNat (x₂ + 0x80) :: tail ∧
        0x800 ≤ c.toNat ∧ c.toNat = ((b.toNat - 0xe0) * 0x40 + x₁) * 0x40 + x₂ := by
  simp only [lead?, UInt8.lt_iff_toNat_lt, UInt8.reduceToNat]
  rw [if_neg (by omega), if_neg (by omega), if_neg (by omega), if_pos h']
  rcases rest with - | ⟨b₁, - | ⟨b₂, rest⟩⟩
  · simp
  · simp
  · simp only [Option.bind_eq_bind, Option.bind_eq_some_iff, continuation?_eq_some_iff,
      scalar?_eq_some_iff, Option.some.injEq, Prod.mk.injEq, List.cons.injEq]
    constructor
    · rintro ⟨x₁, ⟨hx₁, rfl⟩, x₂, ⟨hx₂, rfl⟩, _, ⟨hlow, hc⟩, rfl, rfl⟩
      exact ⟨x₁, hx₁, x₂, hx₂, ⟨rfl, rfl, rfl⟩, hc ▸ hlow, hc⟩
    · rintro ⟨x₁, hx₁, x₂, hx₂, ⟨rfl, rfl, rfl⟩, hlow, hc⟩
      exact ⟨x₁, ⟨hx₁, rfl⟩, x₂, ⟨hx₂, rfl⟩, c, ⟨hc ▸ hlow, hc⟩, rfl, rfl⟩

theorem lead?_four (h : 0xf0 ≤ b.toNat) :
    lead? (b :: rest) = some (c, tail) ↔
      ∃ x₁ < 0x40, ∃ x₂ < 0x40, ∃ x₃ < 0x40,
        rest = UInt8.ofNat (x₁ + 0x80) :: UInt8.ofNat (x₂ + 0x80) ::
          UInt8.ofNat (x₃ + 0x80) :: tail ∧
        0x10000 ≤ c.toNat ∧
        c.toNat = (((b.toNat - 0xf0) * 0x40 + x₁) * 0x40 + x₂) * 0x40 + x₃ := by
  simp only [lead?, UInt8.lt_iff_toNat_lt, UInt8.reduceToNat]
  rw [if_neg (by omega), if_neg (by omega), if_neg (by omega), if_neg (by omega)]
  rcases rest with - | ⟨b₁, - | ⟨b₂, - | ⟨b₃, rest⟩⟩⟩
  · simp
  · simp
  · simp
  · simp only [Option.bind_eq_bind, Option.bind_eq_some_iff, continuation?_eq_some_iff,
      scalar?_eq_some_iff, Option.some.injEq, Prod.mk.injEq, List.cons.injEq]
    constructor
    · rintro ⟨x₁, ⟨hx₁, rfl⟩, x₂, ⟨hx₂, rfl⟩, x₃, ⟨hx₃, rfl⟩, _, ⟨hlow, hc⟩, rfl, rfl⟩
      exact ⟨x₁, hx₁, x₂, hx₂, x₃, hx₃, ⟨rfl, rfl, rfl, rfl⟩, hc ▸ hlow, hc⟩
    · rintro ⟨x₁, hx₁, x₂, hx₂, x₃, hx₃, ⟨rfl, rfl, rfl, rfl⟩, hlow, hc⟩
      exact ⟨x₁, ⟨hx₁, rfl⟩, x₂, ⟨hx₂, rfl⟩, x₃, ⟨hx₃, rfl⟩, c, ⟨hc ▸ hlow, hc⟩, rfl, rfl⟩

theorem lead?_stray (h : 0x80 ≤ b.toNat) (h' : b.toNat < 0xc0) : lead? (b :: rest) = none := by
  simp only [lead?, UInt8.lt_iff_toNat_lt, UInt8.reduceToNat]
  rw [if_neg (by omega), if_pos h']

theorem eq_of_lead? (h : lead? bs = some (c, tail)) : bs = String.utf8EncodeChar c ++ tail := by
  have hvalid : c.toNat < 0xd800 ∨ 0xdfff < c.toNat ∧ c.toNat < 0x110000 := c.valid
  rw [encode_eq]
  cases bs with
  | nil => cases h
  | cons b rest =>
    -- the first byte tells the length
    by_cases h₁ : b.toNat < 0x80
    · obtain ⟨hc, rfl⟩ := (lead?_one h₁).1 h
      rw [if_pos (by omega), hc, UInt8.ofNat_toNat]
      rfl
    by_cases h₂ : b.toNat < 0xc0
    · rw [lead?_stray (by omega) h₂] at h
      cases h
    by_cases h₃ : b.toNat < 0xe0
    · obtain ⟨x₁, hx₁, rfl, hlow, hc⟩ := (lead?_two (by omega) h₃).1 h
      have hb : b = UInt8.ofNat (c.toNat / 0x40 + 0xc0) := by
        rw [byte_eq_ofNat_iff (by omega)]
        omega
      have hx : x₁ = c.toNat % 0x40 := by omega
      rw [if_neg (by omega), if_pos (by omega), ← hb, ← hx]
      rfl
    by_cases h₄ : b.toNat < 0xf0
    · obtain ⟨x₁, hx₁, x₂, hx₂, rfl, hlow, hc⟩ := (lead?_three (by omega) h₄).1 h
      have hb : b = UInt8.ofNat (c.toNat / 0x1000 + 0xe0) := by
        rw [byte_eq_ofNat_iff (by omega)]
        omega
      have hx : x₁ = c.toNat / 0x40 % 0x40 ∧ x₂ = c.toNat % 0x40 := by omega
      rw [if_neg (by omega), if_neg (by omega), if_pos (by omega), ← hb, ← hx.1, ← hx.2]
      rfl
    · obtain ⟨x₁, hx₁, x₂, hx₂, x₃, hx₃, rfl, hlow, hc⟩ := (lead?_four (by omega)).1 h
      have hb : b = UInt8.ofNat (c.toNat / 0x40000 + 0xf0) := by
        rw [byte_eq_ofNat_iff (by omega)]
        omega
      have hx : x₁ = c.toNat / 0x1000 % 0x40 ∧ x₂ = c.toNat / 0x40 % 0x40 ∧
          x₃ = c.toNat % 0x40 := by omega
      rw [if_neg (by omega), if_neg (by omega), if_neg (by omega), ← hb, ← hx.1, ← hx.2.1,
        ← hx.2.2]
      rfl

theorem lead?_encode (c : Char) (tail : List UInt8) :
    lead? (String.utf8EncodeChar c ++ tail) = some (c, tail) := by
  have hvalid : c.toNat < 0xd800 ∨ 0xdfff < c.toNat ∧ c.toNat < 0x110000 := c.valid
  have hbyte : ∀ n < 256, (UInt8.ofNat n).toNat = n := fun n hn => UInt8.toNat_ofNat_of_lt' hn
  have hrem : ∀ n, n % 0x40 < 0x40 := fun n => Nat.mod_lt n (by decide)
  rw [encode_eq]
  -- the length is read off the code point here, and off the first byte in the lemmas used
  split
  · have hb := hbyte c.toNat (by omega)
    exact (lead?_one (by omega)).2 ⟨hb.symm, rfl⟩
  · split
    · have hb := hbyte (c.toNat / 0x40 + 0xc0) (by omega)
      exact (lead?_two (by omega) (by omega)).2 ⟨_, hrem _, rfl, by omega, by omega⟩
    · split
      · have hb := hbyte (c.toNat / 0x1000 + 0xe0) (by omega)
        exact (lead?_three (by omega) (by omega)).2
          ⟨_, hrem _, _, hrem _, rfl, by omega, by omega⟩
      · have hb := hbyte (c.toNat / 0x40000 + 0xf0) (by omega)
        exact (lead?_four (by omega)).2
          ⟨_, hrem _, _, hrem _, _, hrem _, rfl, by omega, by omega⟩

/-- A character is found in front exactly if its encoding stands there. -/
theorem lead?_eq_some_iff : lead? bs = some (c, tail) ↔ bs = String.utf8EncodeChar c ++ tail := by
  constructor
  · exact eq_of_lead?
  · rintro rfl
    exact lead?_encode c tail

end Lead

/-! ## All bytes -/

/-- How bytes are read: an encoded character is a glyph, and so is a byte at which no
encoded character begins. -/
inductive Reads : List UInt8 → Text → Prop where
  | nil : Reads [] []
  | char (c : Char) {bs : List UInt8} {t : Text} :
      Reads bs t → Reads (String.utf8EncodeChar c ++ bs) (.char c :: t)
  | stray {b : UInt8} {bs : List UInt8} {t : Text} :
      (∀ c, ¬ String.utf8EncodeChar c <+: b :: bs) → Reads bs t → Reads (b :: bs) (.stray b :: t)

theorem exists_reads (bs : List UInt8) : ∃ t, Reads bs t := by
  -- on the length, since a character takes several bytes away
  induction hlen : bs.length using Nat.strongRecOn generalizing bs with
  | ind n ih =>
    cases bs with
    | nil => exact ⟨[], .nil⟩
    | cons b rest =>
      cases hlead : lead? (b :: rest) with
      | none =>
        obtain ⟨t, ht⟩ := ih rest.length (by simp [← hlen]) rest rfl
        refine ⟨.stray b :: t, .stray ?_ ht⟩
        rintro c ⟨tail, htail⟩
        rw [← htail, lead?_encode] at hlead
        cases hlead
      | some found =>
        obtain ⟨c, tail⟩ := found
        have hbytes := lead?_eq_some_iff.1 hlead
        have hpos := String.length_utf8EncodeChar c ▸ c.utf8Size_pos
        obtain ⟨t, ht⟩ := ih tail.length (by rw [← hlen, hbytes, List.length_append]; omega) tail rfl
        exact ⟨.char c :: t, hbytes ▸ .char c ht⟩

theorem decodeFrom_of_lead? {b : UInt8} {rest tail : List UInt8} {c : Char} {fuel : Nat}
    {seen : Text} (h : lead? (b :: rest) = some (c, tail)) :
    decodeFrom (fuel + 1) (b :: rest) seen = decodeFrom fuel tail (.char c :: seen) := by
  rw [decodeFrom, h]

theorem decodeFrom_of_stray {b : UInt8} {rest : List UInt8} {fuel : Nat} {seen : Text}
    (h : lead? (b :: rest) = none) :
    decodeFrom (fuel + 1) (b :: rest) seen = decodeFrom fuel rest (.stray b :: seen) := by
  rw [decodeFrom, h]

theorem Reads.decodeFrom_eq {bs : List UInt8} {t : Text} (h : Reads bs t) {fuel : Nat}
    (hfuel : bs.length ≤ fuel) (seen : Text) : decodeFrom fuel bs seen = seen.reverse ++ t := by
  induction h generalizing fuel seen with
  | nil =>
    rw [List.append_nil]
    cases fuel with
    | zero => rfl
    | succ fuel => rfl
  | @char c bs t _ ih =>
    obtain ⟨b, rest, hcons⟩ := List.exists_cons_of_ne_nil (String.utf8EncodeChar_ne_nil (c := c))
    have hlead := lead?_encode c bs
    rw [hcons, List.cons_append] at hlead hfuel ⊢
    cases fuel with
    | zero => exact absurd hfuel (by simp)
    | succ fuel =>
      -- a character takes at least one byte, so the fuel lasts
      have hrest : bs.length ≤ fuel := by
        simp only [List.length_append, List.length_cons] at hfuel
        omega
      rw [decodeFrom_of_lead? hlead, ih hrest]
      simp
  | @stray b bs t hno _ ih =>
    have hlead : lead? (b :: bs) = none := by
      cases hfound : lead? (b :: bs) with
      | none => rfl
      | some found => exact absurd ⟨found.2, (lead?_eq_some_iff.1 hfound).symm⟩ (hno found.1)
    cases fuel with
    | zero => exact absurd hfuel (by simp)
    | succ fuel =>
      rw [decodeFrom_of_stray hlead, ih (Nat.le_of_succ_le_succ hfuel)]
      simp

/-- There is one way to read bytes, and decoding finds it. -/
theorem reads_iff {bs : List UInt8} {t : Text} : Reads bs t ↔ decodeAll bs = t := by
  have hdecode : ∀ {u}, Reads bs u → decodeAll bs = u := fun h => h.decodeFrom_eq (Nat.le_refl _) []
  constructor
  · exact hdecode
  · rintro rfl
    obtain ⟨u, hu⟩ := exists_reads bs
    rwa [hdecode hu]

/-! ## Joined bytes -/

/-- All bytes of an encoded character but the first are outside ASCII. -/
theorem le_of_mem_tail_encode {c : Char} {b : UInt8} (h : b ∈ (String.utf8EncodeChar c).tail) :
    0x80 ≤ b.toNat := by
  have hpayload : ∀ n, 0x80 ≤ (UInt8.ofNat (n % 0x40 + 0x80)).toNat := by
    intro n
    rw [UInt8.toNat_ofNat_of_lt' (show n % 0x40 + 0x80 < 256 by omega)]
    omega
  rw [encode_eq] at h
  split at h
  · cases h
  · split at h
    · simp only [List.tail_cons, List.mem_singleton] at h
      exact h ▸ hpayload _
    · split at h
      · simp only [List.tail_cons, List.mem_cons, List.not_mem_nil, or_false] at h
        rcases h with rfl | rfl
        · exact hpayload _
        · exact hpayload _
      · simp only [List.tail_cons, List.mem_cons, List.not_mem_nil, or_false] at h
        rcases h with rfl | rfl | rfl
        · exact hpayload _
        · exact hpayload _
        · exact hpayload _

/-- No encoded character goes on across a comma. -/
theorem encode_stops_at_comma {c : Char} {b : UInt8} {bs rest : List UInt8}
    (h : String.utf8EncodeChar c <+: b :: bs ++ 0x2c :: rest) :
    String.utf8EncodeChar c <+: b :: bs := by
  obtain ⟨tail, htail⟩ := h
  rcases List.append_eq_append_iff.1 htail with ⟨as, hbs, -⟩ | ⟨as, hc, hcomma⟩
  · exact ⟨as, hbs.symm⟩
  · cases as with
    | nil => exact ⟨[], by simp [hc]⟩
    | cons b' as =>
      obtain rfl : 0x2c = b' := (List.cons.inj hcomma).1
      have hmem : (0x2c : UInt8) ∈ (String.utf8EncodeChar c).tail := by
        rw [hc]
        simp
      exact absurd (le_of_mem_tail_encode hmem) (by decide)

/-- What stands before a comma and what follows it are read by themselves. -/
theorem Reads.append_comma {bs rest : List UInt8} {t u : Text} (h : Reads bs t)
    (hrest : Reads rest u) : Reads (bs ++ 0x2c :: rest) (t ++ .char ',' :: u) := by
  induction h with
  | nil => exact .char ',' hrest
  | char c _ ih =>
    rw [List.append_assoc]
    exact .char c ih
  | stray hno _ ih => exact .stray (fun c hc => hno c (encode_stops_at_comma hc)) ih

/-- Bytes joined with commas are read as their texts joined with commas. -/
theorem decodeAll_intercalate (strings : List (List UInt8)) :
    decodeAll ([0x2c].intercalate strings) = [.char ','].intercalate (strings.map decodeAll) := by
  cases strings with
  | nil => rfl
  | cons bs rest =>
    induction rest generalizing bs with
    | nil => simp [List.intercalate_singleton]
    | cons next rest ih =>
      have hread := (reads_iff.2 (rfl : decodeAll bs = _)).append_comma (reads_iff.2 (ih next))
      rw [List.map_cons, List.map_cons, List.intercalate_cons_cons, List.intercalate_cons_cons,
        List.append_assoc, List.append_assoc]
      exact reads_iff.1 hread

end Glyph

namespace Text

theorem toList_loop (b : ByteArray) (i : Nat) (seen : List UInt8) :
    ByteArray.toList.loop b i seen = seen.reverse ++ b.data.toList.drop i := by
  induction hleft : b.size - i generalizing i seen with
  | zero =>
    have hlen : b.data.toList.length ≤ i := Nat.sub_eq_zero_iff_le.1 hleft
    rw [ByteArray.toList.loop, if_neg (by omega), List.drop_of_length_le hlen, List.append_nil]
  | succ k ih =>
    have hi : i < b.data.toList.length := by
      have hsize : b.data.toList.length = b.size := rfl
      omega
    have hget : b.get! i = b.data.toList[i] := getElem!_pos b.data i hi
    rw [ByteArray.toList.loop, if_pos (by omega), ih (i + 1) (b.get! i :: seen) (by omega), hget,
      List.drop_eq_getElem_cons hi]
    simp

theorem reads_ofString (s : String) : Glyph.Reads s.toUTF8.data.toList (ofString s) := by
  have hread : ∀ cs : List Char,
      Glyph.Reads (cs.flatMap String.utf8EncodeChar) (cs.map Glyph.char) := by
    intro cs
    induction cs with
    | nil => exact .nil
    | cons c rest ih => exact .char c ih
  have hbytes : s.toUTF8.data.toList = s.toList.flatMap String.utf8EncodeChar := by
    conv => lhs; rw [← String.ofList_toList (s := s)]
    exact List.toList_data_toByteArray
  rw [hbytes]
  exact hread s.toList

/-- Bytes that are a string's are decoded like all others. -/
theorem ofByteArray_eq (b : ByteArray) : ofByteArray b = Glyph.decodeAll b.data.toList := by
  rw [ofByteArray, String.fromUTF8?]
  by_cases hvalid : b.IsValidUTF8
  · rw [dif_pos hvalid]
    exact (Glyph.reads_iff.1 (reads_ofString (String.fromUTF8 b hvalid))).symm
  · rw [dif_neg hvalid]
    exact congrArg Glyph.decodeAll (toList_loop b 0 [])

/-- The text of a file's content is the only way to read its bytes. -/
theorem reads_ofByteArray_iff {b : ByteArray} {t : Text} :
    Glyph.Reads b.data.toList t ↔ ofByteArray b = t := by
  rw [ofByteArray_eq, Glyph.reads_iff]

end Text

end CellMachine
