import CellMachine.Text.Numeral

/-!
# What numerals denote

A decimal literal is an optional sign and one or more digits. `Numeral.Decimal` says
so without an order of reading and without a bound, and `Numeral.int64_eq_ok_iff`
says that reading accepts exactly the literals whose number fits 64 bits. The reader
gives up at the first digit that takes the magnitude out of range; this is no loss,
because further digits never make it smaller (`Numeral.le_ofDigits`). The numeral that
is written for a number is a literal of it (`Numeral.decimal_write`).
-/

set_option autoImplicit false

namespace CellMachine.Numeral

/-- The glyph of a digit. -/
def digit (d : Nat) : Glyph :=
  .char d.digitChar

/-- The number that starts with `n` and goes on with the given digits. -/
def ofDigits (n : Nat) (ds : List Nat) : Nat :=
  ds.foldl (fun n d => n * 10 + d) n

/-- A text of one or more digits with the number it denotes. -/
def Digits (t : Text) (n : Nat) : Prop :=
  ∃ ds : List Nat, ds ≠ [] ∧ (∀ d ∈ ds, d < 10) ∧ t = ds.map digit ∧ n = ofDigits 0 ds

/-- A decimal literal with the integer it denotes. -/
inductive Decimal : Text → Int → Prop where
  | bare {t : Text} {n : Nat} : Digits t n → Decimal t n
  | plus {t : Text} {n : Nat} : Digits t n → Decimal (.char '+' :: t) n
  | minus {t : Text} {n : Nat} : Digits t n → Decimal (.char '-' :: t) (-n)

/-! ## Digits -/

theorem digit?_digit {d : Nat} (h : d < 10) : digit? (digit d) = some d := by
  have key : ∀ d : Fin 10, digit? (digit d) = some d.val := by decide
  exact key ⟨d, h⟩

theorem eq_digit_of_digit? {g : Glyph} {d : Nat} (h : digit? g = some d) :
    d < 10 ∧ g = digit d := by
  cases g with
  | stray b => cases h
  | char c =>
    simp only [digit?] at h
    split at h
    · next hc =>
      cases h
      have hbounds : 48 ≤ c.toNat ∧ c.toNat ≤ 57 := by
        simpa [Char.isDigit, UInt32.le_iff_toNat_le] using hc
      have key : ∀ d : Fin 10, (Nat.digitChar d).toNat = 48 + d.val := by decide
      have hd := key ⟨c.toNat - 48, by omega⟩
      refine ⟨by show c.toNat - 48 < 10; omega, ?_⟩
      show Glyph.char c = Glyph.char (Nat.digitChar (c.toNat - 48))
      rw [Glyph.char.injEq]
      apply Char.toNat_inj.1
      rw [hd]
      show c.toNat = 48 + (c.toNat - 48)
      omega
    · cases h

theorem le_ofDigits (n : Nat) (ds : List Nat) : n ≤ ofDigits n ds := by
  induction ds generalizing n with
  | nil => exact Nat.le_refl n
  | cons d rest ih =>
    have hrest : n * 10 + d ≤ ofDigits (n * 10 + d) rest := ih (n * 10 + d)
    show n ≤ ofDigits (n * 10 + d) rest
    omega

theorem ofDigits_concat (n : Nat) (ds : List Nat) (d : Nat) :
    ofDigits n (ds ++ [d]) = ofDigits n ds * 10 + d :=
  List.foldl_append

/-- The magnitude of a text is the number its digits denote, if that is in range. -/
theorem magnitude_eq_ok_iff {n r : Nat} (hn : n < wordCount) {t : Text} :
    magnitude n t = .ok r ↔
      ∃ ds : List Nat, (∀ d ∈ ds, d < 10) ∧ t = ds.map digit ∧ r = ofDigits n ds ∧
        r < wordCount := by
  induction t generalizing n with
  | nil =>
    simp only [magnitude, Except.ok.injEq]
    constructor
    · rintro rfl
      exact ⟨[], nofun, rfl, rfl, hn⟩
    · rintro ⟨ds, -, hds, rfl, -⟩
      rw [List.map_eq_nil_iff.1 hds.symm]
      rfl
  | cons g rest ih =>
    simp only [magnitude]
    constructor
    · intro h
      split at h
      · cases h
      · next d hd =>
        obtain ⟨hlt, rfl⟩ := eq_digit_of_digit? hd
        split at h
        · next hnext =>
          obtain ⟨ds, hds, rfl, hr, hrange⟩ := (ih hnext).1 h
          refine ⟨d :: ds, ?_, rfl, hr, hrange⟩
          intro d' hd'
          rcases List.mem_cons.1 hd' with rfl | hd'
          · exact hlt
          · exact hds d' hd'
        · cases h
    · rintro ⟨ds, hds, ht, hr, hrange⟩
      cases ds with
      | nil => cases ht
      | cons d ds =>
        cases ht
        have hlt : d < 10 := hds d List.mem_cons_self
        -- the digits that follow cannot bring a magnitude back into range
        have hnext : n * 10 + d < wordCount := by
          have hle : n * 10 + d ≤ r := by
            rw [hr]
            exact le_ofDigits (n * 10 + d) ds
          omega
        rw [digit?_digit hlt]
        simp only [hnext, if_true]
        exact (ih hnext).2 ⟨ds, fun d' hd' => hds d' (List.mem_cons_of_mem d hd'), rfl, hr, hrange⟩

theorem unsigned_eq_ok_iff {t : Text} {n : Nat} :
    unsigned t = .ok n ↔ Digits t n ∧ n < wordCount := by
  simp only [unsigned]
  constructor
  · intro h
    split at h
    · cases h
    · next hne =>
      obtain ⟨ds, hds, rfl, hn, hrange⟩ := (magnitude_eq_ok_iff (by decide)).1 h
      refine ⟨⟨ds, ?_, hds, rfl, hn⟩, hrange⟩
      rintro rfl
      exact hne rfl
  · rintro ⟨⟨ds, hne, hds, rfl, hn⟩, hrange⟩
    have hmap : (ds.map digit).isEmpty = false := by simpa using hne
    rw [if_neg (by rw [hmap]; exact Bool.false_ne_true)]
    exact (magnitude_eq_ok_iff (by decide)).2 ⟨ds, hds, rfl, hn, hrange⟩

/-- Digits do not start with a sign, so a sign can be told from them. -/
theorem Digits.head_ne {t : Text} {n : Nat} (h : Digits t n) {c : Char} (hc : c.isDigit = false) :
    t.head? ≠ some (.char c) := by
  obtain ⟨ds, -, hds, rfl, -⟩ := h
  cases ds with
  | nil => exact nofun
  | cons d rest =>
    intro hhead
    have hd := digit?_digit (hds d List.mem_cons_self)
    rw [List.map_cons, List.head?_cons, Option.some.injEq] at hhead
    rw [hhead] at hd
    simp [digit?, hc] at hd

/-! ## Literals -/

theorem signed_of_head {t : Text} (hplus : t.head? ≠ some (.char '+'))
    (hminus : t.head? ≠ some (.char '-')) : signed t = (unsigned t).map Int.ofNat := by
  unfold signed
  split
  · exact absurd rfl hplus
  · exact absurd rfl hminus
  · rfl

/-- The sign is read first, and the magnitude may still be twice too large. -/
theorem signed_eq_ok_iff {t : Text} {n : Int} :
    signed t = .ok n ↔ Decimal t n ∧ n.natAbs < wordCount := by
  have hmap : ∀ {u : Text} {f : Nat → Int}, (unsigned u).map f = .ok n ↔
      ∃ m, Digits u m ∧ m < wordCount ∧ f m = n := by
    intro u f
    constructor
    · intro h
      cases hu : unsigned u with
      | error fault =>
        rw [hu] at h
        cases h
      | ok m =>
        rw [hu] at h
        obtain ⟨hd, hrange⟩ := unsigned_eq_ok_iff.1 hu
        exact ⟨m, hd, hrange, Except.ok.inj h⟩
    · rintro ⟨m, hd, hrange, rfl⟩
      rw [unsigned_eq_ok_iff.2 ⟨hd, hrange⟩]
      rfl
  constructor
  · intro h
    unfold signed at h
    split at h
    · obtain ⟨m, hd, hrange, rfl⟩ := hmap.1 h
      exact ⟨.plus hd, hrange⟩
    · obtain ⟨m, hd, hrange, rfl⟩ := hmap.1 h
      exact ⟨.minus hd, by rw [Int.natAbs_neg]; exact hrange⟩
    · obtain ⟨m, hd, hrange, rfl⟩ := hmap.1 h
      exact ⟨.bare hd, hrange⟩
  · rintro ⟨hdec, hrange⟩
    cases hdec with
    | bare hd =>
      rw [signed_of_head (hd.head_ne rfl) (hd.head_ne rfl)]
      exact hmap.2 ⟨_, hd, hrange, rfl⟩
    | plus hd => exact hmap.2 ⟨_, hd, hrange, rfl⟩
    | minus hd =>
      rw [Int.natAbs_neg] at hrange
      exact hmap.2 ⟨_, hd, hrange, rfl⟩

/-- Reading accepts the decimal literals that fit 64 bits, and no other texts. -/
theorem int64_eq_ok_iff {t : Text} {v : Int64} :
    int64 t = .ok v ↔ ∃ n, Decimal t n ∧ least ≤ n ∧ n ≤ greatest ∧ v = Int64.ofInt n := by
  simp only [int64]
  constructor
  · intro h
    split at h
    · cases h
    · next n hn =>
      split at h
      · next hrange =>
        cases h
        exact ⟨n, (signed_eq_ok_iff.1 hn).1, hrange.1, hrange.2, rfl⟩
      · cases h
  · rintro ⟨n, hd, hmin, hmax, rfl⟩
    have hrange : n.natAbs < wordCount := by
      simp only [least, greatest, wordCount] at *
      omega
    have hs : signed t = .ok n := signed_eq_ok_iff.2 ⟨hd, hrange⟩
    simp [hs, hmin, hmax]

theorem read_eq_ok_iff {reading : Reading} {t : Text} {v : Int64} :
    read reading t = .ok v ↔ int64 t = .ok v := by
  unfold read
  cases int64 t with
  | ok n => simp
  | error fault => simp

/-! ## Written numerals

What is written is a literal of the number, so reading gives the number back. The
digits are found by division from the right, while `ofDigits` goes from the left;
the two meet because the last digit of a number is its remainder by ten. -/

theorem ofString_ofList (cs : List Char) : Text.ofString (String.ofList cs) = cs.map Glyph.char := by
  simp [Text.ofString]

theorem digits_toDigits (n : Nat) : Digits ((Nat.toDigits 10 n).map Glyph.char) n := by
  induction n using Nat.strongRecOn with
  | ind n ih =>
    rw [Nat.toDigits_eq_if (by decide)]
    split
    · next hlt =>
      refine ⟨[n], List.cons_ne_nil _ _, ?_, rfl, ?_⟩
      · simpa using hlt
      · simp [ofDigits]
    · next hge =>
      obtain ⟨ds, -, hds, htext, hval⟩ := ih (n / 10) (by omega)
      refine ⟨ds ++ [n % 10], by simp, ?_, ?_, ?_⟩
      · intro d hd
        rcases List.mem_append.1 hd with hd | hd
        · exact hds d hd
        · rw [List.mem_singleton.1 hd]
          exact Nat.mod_lt n (by decide)
      · rw [List.map_append, List.map_append, htext]
        rfl
      · rw [ofDigits_concat, ← hval]
        omega

theorem ofString_write_nat (k : Nat) :
    Text.ofString (write k) = (Nat.toDigits 10 k).map Glyph.char :=
  ofString_ofList (Nat.toDigits 10 k)

theorem ofString_write_neg (k : Nat) :
    Text.ofString (write (-(k + 1 : Nat))) =
      .char '-' :: (Nat.toDigits 10 (k + 1)).map Glyph.char :=
  ofString_ofList ('-' :: Nat.toDigits 10 (k + 1))

/-- The numeral of an integer is a literal of it. -/
theorem decimal_write (n : Int) : Decimal (Text.ofString (write n)) n := by
  cases n with
  | ofNat k =>
    have hdigits : Decimal _ (k : Int) := .bare (digits_toDigits k)
    rwa [← ofString_write_nat] at hdigits
  | negSucc k =>
    have hdigits : Decimal _ (-(k + 1 : Nat)) := .minus (digits_toDigits (k + 1))
    rwa [← ofString_write_neg] at hdigits

theorem Digits.glyphs {t : Text} {n : Nat} (h : Digits t n) :
    t ≠ [] ∧ ∀ g ∈ t, ∃ d, d < 10 ∧ g = digit d := by
  obtain ⟨ds, hne, hds, rfl, -⟩ := h
  refine ⟨by simpa using hne, ?_⟩
  intro g hg
  obtain ⟨d, hd, rfl⟩ := List.mem_map.1 hg
  exact ⟨d, hds d hd, rfl⟩

/-- The glyphs of a literal are digits and signs. -/
theorem Decimal.glyphs {t : Text} {n : Int} (h : Decimal t n) :
    t ≠ [] ∧ ∀ g ∈ t, g = .char '+' ∨ g = .char '-' ∨ ∃ d, d < 10 ∧ g = digit d := by
  cases h with
  | bare hd =>
    exact ⟨hd.glyphs.1, fun g hg => Or.inr (Or.inr (hd.glyphs.2 g hg))⟩
  | plus hd | minus hd =>
    refine ⟨List.cons_ne_nil _ _, ?_⟩
    intro g hg
    rcases List.mem_cons.1 hg with rfl | hg
    · simp
    · exact Or.inr (Or.inr (hd.glyphs.2 g hg))

/-- What is written for a cell is read as that cell. -/
theorem int64_writeCell (v : Int64) : int64 (Text.ofString (writeCell v)) = .ok v := by
  refine int64_eq_ok_iff.2
    ⟨v.toInt, decimal_write v.toInt, v.le_toInt, ?_, (Int64.ofInt_toInt v).symm⟩
  have hlt := v.toInt_lt
  simp only [greatest]
  omega

/-! ## Plain literals

A number has many literals, but only one without a plus sign, without leading zeros and
other than `-0`: the one that is written for it. -/

/-- The literal has a zero in front of another digit. -/
def LeadingZero (t : Text) : Prop :=
  ∃ d rest, d < 10 ∧
    (t = digit 0 :: digit d :: rest ∨ t = .char '-' :: digit 0 :: digit d :: rest)

/-- A literal without a plus sign, without leading zeros, and other than `-0`. -/
structure Plain (t : Text) : Prop where
  noPlus : .char '+' ∉ t
  noLeadingZero : ¬ LeadingZero t
  noMinusZero : t ≠ [.char '-', .char '0']

/-- Digits without leading zeros are the ones found by division. -/
theorem toDigits_ofDigits {ds : List Nat} (hne : ds ≠ []) (hds : ∀ d ∈ ds, d < 10)
    (hzero : ds.head? = some 0 → ds = [0]) :
    Nat.toDigits 10 (ofDigits 0 ds) = ds.map Nat.digitChar := by
  induction hlen : ds.length generalizing ds with
  | zero => exact absurd (List.length_eq_zero_iff.1 hlen) hne
  | succ k ih =>
    rcases List.eq_nil_or_concat ds with rfl | ⟨front, d, rfl⟩
    · exact absurd rfl hne
    · rw [List.concat_eq_append] at hlen hds hzero ⊢
      have hd : d < 10 := hds d (by simp)
      rw [ofDigits_concat, Nat.toDigits_eq_if (by decide)]
      cases front with
      | nil => simp [ofDigits, hd]
      | cons first rest =>
        have hfirst : first ≠ 0 := by
          rintro rfl
          simp at hzero
        -- the digits in front are not zero, so there is something to divide
        have hpos : first ≤ ofDigits 0 (first :: rest) := by
          simpa [ofDigits] using le_ofDigits first rest
        have hfront : Nat.toDigits 10 (ofDigits 0 (first :: rest)) =
            (first :: rest).map Nat.digitChar := by
          refine ih (List.cons_ne_nil _ _) ?_ ?_ (by simpa using hlen)
          · intro d' hd'
            exact hds d' (List.mem_append_left _ hd')
          · intro hhead
            exact absurd (Option.some.inj hhead) hfirst
        have hquot : (ofDigits 0 (first :: rest) * 10 + d) / 10 = ofDigits 0 (first :: rest) := by
          omega
        have hrem : (ofDigits 0 (first :: rest) * 10 + d) % 10 = d := by omega
        rw [if_neg (by omega), hquot, hrem, hfront, List.map_append]
        rfl

theorem Digits.eq_toDigits {t : Text} {n : Nat} (h : Digits t n) (hz : ¬ LeadingZero t) :
    t = (Nat.toDigits 10 n).map Glyph.char := by
  obtain ⟨ds, hne, hds, rfl, rfl⟩ := h
  rw [toDigits_ofDigits hne hds, List.map_map]
  · rfl
  · intro hhead
    obtain ⟨first, rest, rfl⟩ := List.exists_cons_of_ne_nil hne
    obtain rfl : first = 0 := Option.some.inj hhead
    cases rest with
    | nil => rfl
    | cons d rest =>
      exact absurd ⟨d, rest.map digit, hds d (by simp), Or.inl rfl⟩ hz

/-- A plain literal is the one that is written. -/
theorem Decimal.eq_write {t : Text} {n : Int} (h : Decimal t n) (hp : Plain t) :
    t = Text.ofString (write n) := by
  obtain ⟨hplus, hz, hm⟩ := hp
  cases h with
  | @bare _ n hd =>
    rw [ofString_write_nat]
    exact hd.eq_toDigits hz
  | plus => exact absurd List.mem_cons_self hplus
  | @minus u n hd =>
    have hu : u = (Nat.toDigits 10 n).map Glyph.char := by
      refine hd.eq_toDigits ?_
      rintro ⟨d, rest, hd', rfl | rfl⟩
      · exact hz ⟨d, rest, hd', Or.inr rfl⟩
      · exact absurd rfl (hd.head_ne (show '-'.isDigit = false from rfl))
    cases n with
    | zero =>
      rw [hu] at hm
      exact absurd rfl hm
    | succ n => rw [hu, ofString_write_neg]

/-- A plain text that is read as a cell is the one that is written for it. -/
theorem eq_writeCell {t : Text} {v : Int64} (h : int64 t = .ok v) (hp : Plain t) :
    t = Text.ofString (writeCell v) := by
  obtain ⟨n, hd, hmin, hmax, rfl⟩ := int64_eq_ok_iff.1 h
  have hback : (Int64.ofInt n).toInt = n := by
    refine Int64.toInt_ofInt_of_le hmin ?_
    simp only [greatest] at hmax
    omega
  rw [writeCell, hback]
  exact hd.eq_write hp

theorem head?_toDigits {n : Nat} (h : 0 < n) : (Nat.toDigits 10 n).head? ≠ some '0' := by
  induction n using Nat.strongRecOn with
  | ind n ih =>
    rw [Nat.toDigits_eq_if (by decide)]
    split
    · next hlt =>
      have key : ∀ d : Fin 10, 0 < d.val → Nat.digitChar d ≠ '0' := by decide
      intro hhead
      exact key ⟨n, hlt⟩ h (Option.some.inj hhead)
    · next hge =>
      have hrest := ih (n / 10) (by omega) (by omega)
      obtain ⟨c, cs, hcs⟩ : ∃ c cs, Nat.toDigits 10 (n / 10) = c :: cs :=
        List.exists_cons_of_ne_nil Nat.toDigits_ne_nil
      rw [hcs] at hrest ⊢
      exact hrest

/-- What is written is plain. -/
theorem plain_write (n : Int) : Plain (Text.ofString (write n)) := by
  have hplus : ∀ k : Nat, .char '+' ∉ (Nat.toDigits 10 k).map Glyph.char := by
    intro k hmem
    obtain ⟨d, hd, heq⟩ := (digits_toDigits k).glyphs.2 _ hmem
    have hdigit := digit?_digit hd
    rw [← heq] at hdigit
    cases hdigit
  have hminus : ∀ k : Nat, ((Nat.toDigits 10 k).map Glyph.char).head? ≠ some (.char '-') :=
    fun k => (digits_toDigits k).head_ne rfl
  have hzero : ∀ k : Nat, 0 < k → ((Nat.toDigits 10 k).map Glyph.char).head? ≠ some (digit 0) := by
    intro k hk hhead
    rw [List.head?_map] at hhead
    obtain ⟨c, hc, heq⟩ := Option.map_eq_some_iff.1 hhead
    cases heq
    exact head?_toDigits hk hc
  cases n with
  | ofNat k =>
    rw [show Int.ofNat k = (k : Int) from rfl, ofString_write_nat]
    refine ⟨hplus k, ?_, ?_⟩
    · rintro ⟨d, rest, -, heq | heq⟩
      · cases k with
        | zero => cases heq
        | succ k => exact hzero (k + 1) (Nat.succ_pos k) (by rw [heq]; rfl)
      · exact hminus k (by rw [heq]; rfl)
    · intro heq
      exact hminus k (by rw [heq]; rfl)
  | negSucc k =>
    rw [Int.negSucc_eq, show ((k : Int) + 1) = ((k + 1 : Nat) : Int) from rfl, ofString_write_neg]
    have hfront := hzero (k + 1) (Nat.succ_pos k)
    refine ⟨?_, ?_, ?_⟩
    · intro hmem
      rcases List.mem_cons.1 hmem with heq | hmem
      · cases heq
      · exact hplus (k + 1) hmem
    · rintro ⟨d, rest, -, heq | heq⟩
      · cases heq
      · rw [(List.cons.inj heq).2] at hfront
        exact hfront rfl
    · intro heq
      rw [(List.cons.inj heq).2] at hfront
      exact hfront rfl

end CellMachine.Numeral
