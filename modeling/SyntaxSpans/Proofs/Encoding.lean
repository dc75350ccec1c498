import Mathlib.Data.List.DropRight
import SyntaxSpans.Text.Utf8

/-!
# Encoded text

Text that is written as bytes is read back (`decode_encode`). A byte offset at which a character begins
splits the text there (`split_of_isBoundary`), and the bytes in front of it tell how many characters,
how many line feeds and how much of the last line stand in front of it.
-/

namespace SyntaxSpans

namespace Utf8

/-- The byte is not the first one of its character. -/
def isTrailing (b : UInt8) : Bool := 0x80 ≤ b.toNat && b.toNat < 0xC0

def lineFeed : UInt8 := 10

/-- A character begins at the offset, or the bytes end there. -/
def IsBoundary (bytes : Bytes) (offset : Int) : Prop :=
  0 ≤ offset ∧ offset ≤ bytes.length ∧ bytes[offset.toNat]?.any isTrailing = false

/-- The number of characters in front of an offset: each has one byte that is not trailing. -/
def charsBefore (bytes : Bytes) (offset : Int) : Nat :=
  (bytes.take offset.toNat).countP (!isTrailing ·)

def feedsBefore (bytes : Bytes) (offset : Int) : Nat := (bytes.take offset.toNat).count lineFeed

/-- The offset behind the last line feed in front of an offset. -/
def lineStart (bytes : Bytes) (offset : Int) : Nat :=
  ((bytes.take offset.toNat).rdropWhile (· != lineFeed)).length

instance (bytes : Bytes) (offset : Int) : Decidable (IsBoundary bytes offset) :=
  inferInstanceAs (Decidable (_ ∧ _ ∧ _))

/-! ## One character -/

theorem toNat_ofNat_of_lt {n : Nat} (h : n < 256) : (UInt8.ofNat n).toNat = n := by
  rw [UInt8.toNat_ofNat']
  exact Nat.mod_eq_of_lt h

theorem isTrailing_ofNat (n : Nat) : isTrailing (.ofNat (0x80 + n % 64)) = true := by
  have hn : (UInt8.ofNat (0x80 + n % 64)).toNat = 0x80 + n % 64 := toNat_ofNat_of_lt (by omega)
  simp only [isTrailing, hn, Bool.and_eq_true, decide_eq_true_eq]
  omega

theorem toNat_lt_of_valid (c : Char) : c.toNat < 0x110000 := by
  rcases c.valid with h | h
  · exact Nat.lt_trans h (by decide)
  · exact h.2

/-- A character is one byte below 0x80, or a lead byte from 0xC0 on with trailing ones behind it. -/
theorem encodeChar_shape (c : Char) : ∃ lead more, encodeChar c = lead :: more ∧
    (more = [] ∧ lead.toNat = c.toNat ∧ c.toNat < 0x80 ∨
      0x80 ≤ c.toNat ∧ 0xC0 ≤ lead.toNat ∧ ∀ b ∈ more, isTrailing b = true) := by
  have hvalid := toNat_lt_of_valid c
  have hlead : ∀ n, 0xC0 ≤ n → n < 256 → 0xC0 ≤ (UInt8.ofNat n).toNat := fun n hn hlt => by
    rwa [toNat_ofNat_of_lt hlt]
  unfold encodeChar
  simp only
  split
  · next h1 => exact ⟨_, _, rfl, Or.inl ⟨rfl, toNat_ofNat_of_lt (by omega), h1⟩⟩
  · next h1 =>
    split
    · refine ⟨_, _, rfl, Or.inr ⟨by omega, hlead _ (by omega) (by omega), ?_⟩⟩
      exact List.forall_mem_singleton.2 (isTrailing_ofNat _)
    · split
      · refine ⟨_, _, rfl, Or.inr ⟨by omega, hlead _ (by omega) (by omega), ?_⟩⟩
        exact List.forall_mem_cons.2 ⟨isTrailing_ofNat _,
          List.forall_mem_singleton.2 (isTrailing_ofNat _)⟩
      · refine ⟨_, _, rfl, Or.inr ⟨by omega, hlead _ (by omega) (by omega), ?_⟩⟩
        exact List.forall_mem_cons.2 ⟨isTrailing_ofNat _, List.forall_mem_cons.2
          ⟨isTrailing_ofNat _, List.forall_mem_singleton.2 (isTrailing_ofNat _)⟩⟩

theorem trail_cons {low high value taken need n : Nat} {rest : Bytes} (hn : n < 256)
    (hlow : low ≤ n) (hhigh : n ≤ high) :
    trail low high value taken (need + 1) (.ofNat n :: rest) =
      trail 0x80 0xBF (value * 64 + (n - 0x80)) (taken + 1) need rest := by
  rw [trail, toNat_ofNat_of_lt hn, if_pos ⟨hlow, hhigh⟩]

/-- A lead byte and its trailing bytes give the character whose code they carry. -/
theorem first_of_trail {c : Char} {n need low high bits : Nat} {more rest : Bytes} (hn : n < 256)
    (hlead : lead? n = some ⟨need, low, high, bits⟩) (hneed : more.length = need)
    (htrail : trail low high bits 1 need (more ++ rest) = .ok c.toNat) :
    first (.ofNat n) (more ++ rest) = .ok (c, more.length) := by
  rw [first, toNat_ofNat_of_lt hn, hlead]
  simp only [htrail, Except.map, Char.ofNat_toNat, hneed]

/-- **A character is read back** from its bytes, whatever stands behind them. -/
theorem first_encodeChar (c : Char) (rest : Bytes) : ∃ lead more, encodeChar c = lead :: more ∧
    first lead (more ++ rest) = .ok (c, more.length) := by
  have hvalid : c.toNat < 0xD800 ∨ 0xDFFF < c.toNat ∧ c.toNat < 0x110000 := c.valid
  unfold encodeChar
  simp only
  -- one case for each number of bytes: a lead byte with the high bits, and six bits in each of the others
  split
  · next h1 =>
    have hlead : lead? c.toNat = some ⟨0, 0, 0, c.toNat⟩ := if_pos h1
    exact ⟨_, _, rfl, first_of_trail (by omega) hlead rfl rfl⟩
  · next h1 =>
    split
    · next h2 =>
      have hlead : lead? (0xC0 + c.toNat / 64) = some ⟨1, 0x80, 0xBF, 0xC0 + c.toNat / 64 - 0xC0⟩ := by
        rw [lead?, if_neg (by omega), if_neg (by omega), if_pos (by omega)]
      refine ⟨_, _, rfl, first_of_trail (by omega) hlead rfl ?_⟩
      rw [List.cons_append, trail_cons (by omega) (by omega) (by omega), trail]
      exact congrArg Except.ok (by omega)
    · next h2 =>
      split
      · next h3 =>
        have hlead : lead? (0xE0 + c.toNat / 4096) = some ⟨2,
            if 0xE0 + c.toNat / 4096 = 0xE0 then 0xA0 else 0x80,
            if 0xE0 + c.toNat / 4096 = 0xED then 0x9F else 0xBF,
            0xE0 + c.toNat / 4096 - 0xE0⟩ := by
          rw [lead?, if_neg (by omega), if_neg (by omega), if_neg (by omega), if_pos (by omega)]
        refine ⟨_, _, rfl, first_of_trail (by omega) hlead rfl ?_⟩
        rw [List.cons_append, trail_cons (by omega) (by split <;> omega) (by split <;> omega),
          List.cons_append, trail_cons (by omega) (by omega) (by omega), trail]
        exact congrArg Except.ok (by omega)
      · next h3 =>
        have hlead : lead? (0xF0 + c.toNat / 262144) = some ⟨3,
            if 0xF0 + c.toNat / 262144 = 0xF0 then 0x90 else 0x80,
            if 0xF0 + c.toNat / 262144 = 0xF4 then 0x8F else 0xBF,
            0xF0 + c.toNat / 262144 - 0xF0⟩ := by
          rw [lead?, if_neg (by omega), if_neg (by omega), if_neg (by omega), if_neg (by omega),
            if_pos (by omega)]
        refine ⟨_, _, rfl, first_of_trail (by omega) hlead rfl ?_⟩
        rw [List.cons_append, trail_cons (by omega) (by split <;> omega) (by split <;> omega),
          List.cons_append, trail_cons (by omega) (by omega) (by omega),
          List.cons_append, trail_cons (by omega) (by omega) (by omega), trail]
        exact congrArg Except.ok (by omega)

/-! ## Texts -/

@[simp] theorem encode_nil : encode [] = [] := rfl

theorem encode_cons (c : Char) (t : Text) : encode (c :: t) = encodeChar c ++ encode t := rfl

theorem encode_append (t u : Text) : encode (t ++ u) = encode t ++ encode u := List.flatMap_append

theorem decodeFrom_encode (start : Nat) (t : Text) : decodeFrom start (encode t) = .ok t := by
  induction t generalizing start with
  | nil => rw [encode_nil, decodeFrom]
  | cons c rest ih =>
    obtain ⟨lead, more, hc, hfirst⟩ := first_encodeChar c (encode rest)
    rw [encode_cons, hc, List.cons_append, decodeFrom]
    split
    · next reason length hf => rw [hfirst] at hf; cases hf
    · next c' length hf =>
      rw [hfirst] at hf
      cases hf
      rw [List.drop_left, ih]
      rfl

/-- **What is written is read back.** -/
theorem decode_encode (t : Text) : decode (encode t) = .ok t := decodeFrom_encode 0 t

/-! ## Counting bytes -/

theorem countP_encodeChar (c : Char) : (encodeChar c).countP (!isTrailing ·) = 1 := by
  obtain ⟨lead, more, hc, hshape⟩ := encodeChar_shape c
  have hlead : isTrailing lead = false := by
    rw [isTrailing, Bool.and_eq_false_iff, decide_eq_false_iff_not, decide_eq_false_iff_not]
    omega
  have hmore : more.countP (!isTrailing ·) = 0 := by
    rw [List.countP_eq_zero]
    intro b hb
    rcases hshape with ⟨rfl, -⟩ | ⟨-, -, htrailing⟩
    · exact absurd hb List.not_mem_nil
    · simp [htrailing b hb]
  rw [hc, List.countP_cons, hmore, hlead]
  rfl

theorem ne_lineFeed_of_mem {c : Char} (h : c ≠ '\n') : ∀ b ∈ encodeChar c, b ≠ lineFeed := by
  obtain ⟨lead, more, hc, hshape⟩ := encodeChar_shape c
  have hcode : c.toNat ≠ 10 := fun heq => h (Char.ext (UInt32.toNat_inj.1 heq))
  rw [hc]
  rintro b hb rfl
  have hfeed : lineFeed.toNat = 10 := rfl
  rcases List.mem_cons.1 hb with rfl | hb
  · omega
  · rcases hshape with ⟨rfl, -⟩ | ⟨-, -, htrailing⟩
    · exact absurd hb List.not_mem_nil
    · exact absurd (htrailing _ hb) (by decide)

theorem encodeChar_newline : encodeChar '\n' = [lineFeed] := rfl

/-- **The bytes tell the length of the text.** -/
theorem countP_encode (t : Text) : (encode t).countP (!isTrailing ·) = t.length := by
  induction t with
  | nil => rfl
  | cons c rest ih =>
    rw [encode_cons, List.countP_append, countP_encodeChar, ih, List.length_cons]
    omega

/-- **The bytes tell the number of line feeds.** -/
theorem count_encode (t : Text) : (encode t).count lineFeed = t.count '\n' := by
  induction t with
  | nil => rfl
  | cons c rest ih =>
    rw [encode_cons, List.count_append, ih]
    by_cases hc : c = '\n'
    · subst hc
      rw [encodeChar_newline, List.count_singleton_self, List.count_cons_self]
      omega
    · rw [List.count_cons_of_ne hc, List.count_eq_zero.2, Nat.zero_add]
      exact fun hb => ne_lineFeed_of_mem hc _ hb rfl

theorem rdropWhile_append_of_forall {α : Type} {drop : α → Bool} (xs : List α) {ys : List α}
    (h : ∀ y ∈ ys, drop y = true) : (xs ++ ys).rdropWhile drop = xs.rdropWhile drop := by
  rw [List.rdropWhile, List.reverse_append,
    List.dropWhile_append_of_pos fun y hy => h y (List.mem_reverse.1 hy), List.rdropWhile]

/-- **The bytes tell where the last line begins.** -/
theorem rdropWhile_encode (t : Text) :
    (encode t).rdropWhile (· != lineFeed) = encode (t.rdropWhile (· != '\n')) := by
  induction t using List.reverseRecOn with
  | nil => rfl
  | append_singleton t c ih =>
    have hsingle : encode [c] = encodeChar c := List.flatMap_singleton _ _
    rw [encode_append, hsingle]
    by_cases hc : c = '\n'
    · subst hc
      rw [encodeChar_newline, List.rdropWhile_concat_neg _ _ _ (by simp),
        List.rdropWhile_concat_neg _ _ _ (by simp), encode_append, hsingle, encodeChar_newline]
    · rw [rdropWhile_append_of_forall _ fun b hb => by simpa using ne_lineFeed_of_mem hc b hb, ih,
        List.rdropWhile_concat_pos _ _ _ (by simpa using hc)]

/-! ## Boundaries -/

/-- **A boundary splits the text** that the bytes spell. -/
theorem split_of_isBoundary {t : Text} {offset : Int} (h : IsBoundary (encode t) offset) :
    ∃ before after, t = before ++ after ∧ offset = (encode before).length := by
  obtain ⟨k, rfl⟩ := Int.eq_ofNat_of_zero_le h.1
  induction t generalizing k with
  | nil =>
    have hlen := h.2.1
    rw [encode_nil, List.length_nil] at hlen
    exact ⟨[], [], rfl, by simp; omega⟩
  | cons c rest ih =>
    obtain ⟨-, hlen, hfirst⟩ := h
    obtain ⟨lead, more, hc, hshape⟩ := encodeChar_shape c
    rw [encode_cons, Int.toNat_natCast] at hfirst
    rw [encode_cons, List.length_append] at hlen
    by_cases hzero : k = 0
    · exact ⟨[], c :: rest, rfl, by simp [hzero]⟩
    · -- the bytes behind the lead byte are trailing, so the boundary is behind all of them
      have hbehind : (encodeChar c).length ≤ k := by
        by_contra hlt
        have hk : k - 1 < more.length := by rw [hc, List.length_cons] at hlt; omega
        have hat : (encodeChar c ++ encode rest)[k]? = some more[k - 1] := by
          rw [List.getElem?_append_left (by omega), hc, List.getElem?_cons, if_neg hzero,
            List.getElem?_eq_getElem hk]
        rcases hshape with ⟨rfl, -⟩ | ⟨-, -, htrailing⟩
        · exact absurd hk (Nat.not_lt_zero _)
        · rw [hat, Option.any_some, htrailing _ (List.getElem_mem hk)] at hfirst
          cases hfirst
      have hrest : IsBoundary (encode rest) ((k - (encodeChar c).length : Nat) : Int) := by
        refine ⟨by omega, by omega, ?_⟩
        rwa [List.getElem?_append_right hbehind] at hfirst
      obtain ⟨before, after, rfl, hoffset⟩ := ih _ hrest
      refine ⟨c :: before, after, rfl, ?_⟩
      rw [encode_cons, List.length_append]
      omega

section
variable (before after : Text)

theorem take_encode : (encode (before ++ after)).take (encode before).length = encode before := by
  rw [encode_append, List.take_left]

theorem charsBefore_split :
    charsBefore (encode (before ++ after)) (encode before).length = before.length := by
  rw [charsBefore, Int.toNat_natCast, take_encode, countP_encode]

theorem feedsBefore_split :
    feedsBefore (encode (before ++ after)) (encode before).length = before.count '\n' := by
  rw [feedsBefore, Int.toNat_natCast, take_encode, count_encode]

theorem lineStart_split : lineStart (encode (before ++ after)) (encode before).length =
    (encode (before.rdropWhile (· != '\n'))).length := by
  rw [lineStart, Int.toNat_natCast, take_encode, rdropWhile_encode]

end

end Utf8

end SyntaxSpans
