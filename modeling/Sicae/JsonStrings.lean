import Sicae.JsonText

/-! # Printed strings are read back

White space and strings, for the round trip of `JsonRoundTrip.lean`:

* the escape sequence of a byte is scanned and decoded as one (`scanString_escapeChar`,
  `unescape_escapeChar`), control characters through `parseHex4_hex04`;
* `parseString_printString` reads a printed string off the front of a text. -/

namespace Sicae

namespace Json

open CString Codec

/-! ### White space -/

/-- White space to the parser. -/
def Blank (s : CStr) : Prop := ∀ c ∈ s, c.toNat ≤ 32

instance (s : CStr) : Decidable (Blank s) :=
  List.decidableBAll (fun c : Char => c.toNat ≤ 32) s

theorem skipWhitespace_append {blanks : CStr} (h : Blank blanks) (s : CStr) :
    skipWhitespace (blanks ++ s) = skipWhitespace s :=
  List.dropWhile_append_of_pos fun c hc => by simpa using h c hc

theorem skipWhitespace_cons {c : Char} (h : 32 < c.toNat) (s : CStr) :
    skipWhitespace (c :: s) = c :: s :=
  List.dropWhile_cons_of_neg (by simpa using h)

theorem blank_nil : Blank [] := nofun

theorem blank_tabs (n : ℕ) : Blank (List.replicate n '\t') := fun c hc => by
  rw [List.eq_of_mem_replicate hc]
  decide

theorem blank_ite {s : CStr} (b : Bool) (h : Blank s) : Blank (if b then s else []) := by
  cases b
  · exact blank_nil
  · exact h

theorem blank_append {s t : CStr} (hs : Blank s) (ht : Blank t) : Blank (s ++ t) := fun c hc =>
  (List.mem_append.mp hc).elim (hs c) (ht c)

/-! ### Strings -/

theorem digitChar_plain {d : ℕ} (h : d < 16) : Nat.digitChar d ≠ '"' ∧ Nat.digitChar d ≠ '\\' :=
  (by decide : ∀ d < 16, Nat.digitChar d ≠ '"' ∧ Nat.digitChar d ≠ '\\') d h

theorem length_hex04 {n : ℕ} (h : n < 16 ^ 4) : (hex04 n).length = 4 :=
  length_zeroPadded ((Nat.length_toDigits_le_iff (by decide) (by decide)).mpr h)

/-- `parse_hex4` undoes `%04x`. -/
theorem parseHex4_hex04 {n : ℕ} (h : n < 16 ^ 4) (rest : CStr) : parseHex4 (hex04 n ++ rest) = n := by
  have htake : (hex04 n ++ rest).take 4 = hex04 n := by
    rw [List.take_append_of_le_length (length_hex04 h).ge, List.take_of_length_le (length_hex04 h).le]
  have hall : (hex04 n).all (fun c => (hexValue c).isSome) = true := by
    rw [List.all_eq_true]
    intro c hc
    obtain ⟨d, hd, rfl⟩ := mem_zeroPadded (by decide) hc
    rw [hexValue_digitChar hd]
    rfl
  rw [parseHex4, htake, if_pos hall, hex04, ofDigits_zeroPadded (by decide),
    ofDigits_toDigits (by decide) (fun d hd => by rw [hexValue_digitChar hd]; rfl)]

/-- The steps over the rest of an escape sequence. -/
theorem unescape_skip : ∀ {used : CStr} {skip : ℕ} (rest : CStr), used.length = skip →
    unescape skip (used ++ rest) = unescape 0 rest
  | [], _, rest, h => by rw [← h]; rfl
  | _ :: used, 0, _, h => by simp at h
  | _ :: used, skip + 1, rest, h => by
      rw [List.cons_append, unescape]
      exact unescape_skip rest (Nat.succ.inj h)

theorem unescape_escape {used rest bytes : CStr}
    (h : escapeSequence (used ++ rest) = some (bytes, used.length + 1)) :
    unescape 0 ('\\' :: (used ++ rest)) = (unescape 0 rest).map (bytes ++ ·) := by
  rw [unescape, if_neg (by decide), h, Option.bind_some]
  exact congrArg _ (unescape_skip rest rfl)

/-- A control character is decoded from its UTF-16 literal. -/
theorem utf16_control {n : ℕ} (h : n < 32) (rest : CStr) :
    utf16LiteralToUtf8 ('\\' :: 'u' :: (hex04 n ++ rest)) = some ([Char.ofNat n], 6) := by
  have hlen := length_hex04 (n := n) (by omega)
  have hdrop : ('\\' :: 'u' :: (hex04 n ++ rest)).drop 2 = hex04 n ++ rest := rfl
  have hand : n &&& 0x7F = n := by
    rw [show (0x7F : ℕ) = 2 ^ 7 - 1 from rfl, Nat.and_two_pow_sub_one_eq_mod]
    omega
  rw [utf16LiteralToUtf8, if_neg (by simp [hlen]), hdrop, parseHex4_hex04 (by omega),
    if_neg (by omega), if_neg (by omega), utf8Bytes, if_pos (by omega), hand]
  rfl

/-- What is written for a byte, case by case. -/
theorem escapeChar_cases (c : Char) :
    (escapeChar c = [c] ∧ c ≠ '"' ∧ c ≠ '\\') ∨
    (∃ e, escapeChar c = ['\\', e] ∧ ∀ rest, escapeSequence (e :: rest) = some ([c], 2)) ∨
    (escapeChar c = '\\' :: 'u' :: hex04 c.toNat ∧ c.toNat < 32) := by
  unfold escapeChar
  split_ifs with hplain h1 h2 h3 h4 h5 h6 h7
  · exact .inl ⟨rfl, hplain.2⟩
  · exact .inr (.inl ⟨_, rfl, fun rest => by rw [h1]; rfl⟩)
  · exact .inr (.inl ⟨_, rfl, fun rest => by rw [h2]; rfl⟩)
  · exact .inr (.inl ⟨_, rfl, fun rest => by rw [h3]; rfl⟩)
  · exact .inr (.inl ⟨_, rfl, fun rest => by rw [h4]; rfl⟩)
  · exact .inr (.inl ⟨_, rfl, fun rest => by rw [h5]; rfl⟩)
  · exact .inr (.inl ⟨_, rfl, fun rest => by rw [h6]; rfl⟩)
  · exact .inr (.inl ⟨_, rfl, fun rest => by rw [h7]; rfl⟩)
  · refine .inr (.inr ⟨rfl, ?_⟩)
    by_contra hge
    exact hplain ⟨by omega, h2, h1⟩

theorem unescape_escapeChar (c : Char) (rest : CStr) :
    unescape 0 (escapeChar c ++ rest) = (unescape 0 rest).map (c :: ·) := by
  rcases escapeChar_cases c with ⟨he, -, hb⟩ | ⟨e, he, hs⟩ | ⟨he, hlt⟩
  · rw [he, List.singleton_append, unescape, if_pos hb]
  · rw [he]
    exact @unescape_escape [e] rest [c] (hs rest)
  · rw [he]
    have hlen := length_hex04 (n := c.toNat) (by omega)
    have h := utf16_control hlt rest
    rw [Char.ofNat_toNat] at h
    have hlit : escapeSequence ('u' :: hex04 c.toNat ++ rest) =
        some ([c], ('u' :: hex04 c.toNat).length + 1) := by
      rw [List.length_cons, hlen]
      exact h
    exact unescape_escape hlit

theorem scanString_plain {c : Char} (h1 : c ≠ '"') (h2 : c ≠ '\\') (rest : CStr) :
    scanString (c :: rest) = (scanString rest).map (fun p => (c :: p.1, p.2)) := by
  rw [scanString]
  all_goals simp [h1, h2]

theorem scanString_plains : ∀ {s : CStr} (rest : CStr), (∀ c ∈ s, c ≠ '"' ∧ c ≠ '\\') →
    scanString (s ++ rest) = (scanString rest).map (fun p => (s ++ p.1, p.2))
  | [], rest, _ => by simp
  | c :: s, rest, h => by
      obtain ⟨h1, h2⟩ := h c List.mem_cons_self
      rw [List.cons_append, scanString_plain h1 h2,
        scanString_plains rest (fun d hd => h d (List.mem_cons_of_mem _ hd)), Option.map_map]
      rfl

theorem scanString_escapeChar (c : Char) (rest : CStr) :
    scanString (escapeChar c ++ rest) =
      (scanString rest).map (fun p => (escapeChar c ++ p.1, p.2)) := by
  rcases escapeChar_cases c with ⟨he, hq⟩ | ⟨e, he, -⟩ | ⟨he, -⟩
  · rw [he]
    exact scanString_plain hq.1 hq.2 rest
  · rw [he]
    rfl
  · have hhex : ∀ d ∈ hex04 c.toNat, d ≠ '"' ∧ d ≠ '\\' := by
      intro d hd
      obtain ⟨k, hk, rfl⟩ := mem_zeroPadded (by decide) hd
      exact digitChar_plain hk
    rw [he]
    show (scanString (hex04 c.toNat ++ rest)).map _ = _
    rw [scanString_plains rest hhex, Option.map_map]
    rfl

/-- **A printed string is read back**, whatever follows it. -/
theorem parseString_printString {s : CStr} (hs : '\x00' ∉ s) (rest : CStr) :
    parseString (printString s ++ rest) = some (s, rest) := by
  have hscan : ∀ t : CStr,
      scanString (t.flatMap escapeChar ++ '"' :: rest) = some (t.flatMap escapeChar, rest) := by
    intro t
    induction t with
    | nil => rfl
    | cons c t ih =>
        rw [List.flatMap_cons, List.append_assoc, scanString_escapeChar, ih]
        rfl
  have hdecode : ∀ t : CStr, unescape 0 (t.flatMap escapeChar) = some t := by
    intro t
    induction t with
    | nil => rfl
    | cons c t ih =>
        rw [List.flatMap_cons, unescape_escapeChar, ih]
        rfl
  have htext : printString s ++ rest = '"' :: (s.flatMap escapeChar ++ '"' :: rest) := by
    simp [printString]
  rw [htext, parseString, hscan, Option.bind_some, hdecode, Option.map_some,
    cstr_eq_self_iff.mpr hs]

end Json

end Sicae
