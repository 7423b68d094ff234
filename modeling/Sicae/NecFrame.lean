import Mathlib.Data.Nat.Notation
import Mathlib.Data.List.Basic

/-! # Infrared frames

`nec_send_frame` writes a header and sixteen one-marks, whatever the address and the command are.
`nec_parser_frame` takes the item at position `i` for the bit `i` of both words, the header
included, and compares the mark with one bound for the address and another for the command.

So what is parsed from a frame depends on the timing constants only (`necParserFrame_necSendFrame`):
the one pair of words that all frames stand for. -/

namespace Sicae

/-! ### The source -/

/-- The constants `NEC_HEADER_HIGH_US`, `NEC_HEADER_LOW_US`, `NEC_BIT_ONE_HIGH_US`,
`NEC_BIT_ONE_LOW_US` and `RMT_TICK_10_US`, which the repository does not define. -/
structure NecTiming where
  headerHighUs : ℕ
  headerLowUs : ℕ
  bitOneHighUs : ℕ
  bitOneLowUs : ℕ
  rmtTick10Us : ℕ

/-- A `rmt_item32_t`: two levels, each with a duration of 15 bits. -/
structure RmtItem where
  duration0 : BitVec 15
  level0 : Bool
  duration1 : BitVec 15
  level1 : Bool
deriving DecidableEq, Repr

/-- A duration in ticks, cut to its field. -/
def NecTiming.ticks (t : NecTiming) (us : ℕ) : BitVec 15 :=
  BitVec.ofNat 15 (us / 10 * t.rmtTick10Us)

/-- `nec_build_item`. -/
def necBuildItem (t : NecTiming) (highUs lowUs : ℕ) : RmtItem where
  level0 := true
  duration0 := t.ticks highUs
  level1 := false
  duration1 := t.ticks lowUs

/-- The items that `nec_send_frame` writes.  Neither `address` nor `command` is used. -/
def necSendFrame (t : NecTiming) (_address _command : BitVec 16) : List RmtItem :=
  necBuildItem t t.headerHighUs t.headerLowUs ::
    List.replicate 16 (necBuildItem t t.bitOneHighUs t.bitOneLowUs)

/-- The test of a mark, `level0 == 1 && duration0 > us`. -/
def RmtItem.markExceeds (item : RmtItem) (us : ℕ) : Bool :=
  item.level0 && decide (us < item.duration0.toNat)

/-- `word |= (1 << i)`, on a word of 16 bits. -/
def orBit (word : BitVec 16) (i : ℕ) : BitVec 16 := word ||| (1#32 <<< i).setWidth 16

/-- The loop of `nec_parser_frame`, from the position `i` on. -/
def parserLoop (t : NecTiming) : ℕ → List RmtItem → BitVec 16 × BitVec 16 → BitVec 16 × BitVec 16
  | _, [], words => words
  | i, item :: items, (address, command) =>
      let address := if item.markExceeds t.bitOneHighUs then orBit address i else address
      let command := if item.markExceeds t.bitOneLowUs then orBit command i else command
      parserLoop t (i + 1) items (address, command)

/-- `nec_parser_frame`. -/
def necParserFrame (t : NecTiming) (items : List RmtItem) : BitVec 16 × BitVec 16 :=
  parserLoop t 0 items (0, 0)

/-! ### The parser -/

/-- One of the two words: the bits of the positions whose mark exceeds a bound. -/
def wordFrom (us : ℕ) : ℕ → List RmtItem → BitVec 16 → BitVec 16
  | _, [], word => word
  | i, item :: items, word =>
      wordFrom us (i + 1) items (if item.markExceeds us then orBit word i else word)

/-- The parser reads the two words independently. -/
theorem parserLoop_eq (t : NecTiming) (i : ℕ) (items : List RmtItem) (address command : BitVec 16) :
    parserLoop t i items (address, command) =
      (wordFrom t.bitOneHighUs i items address, wordFrom t.bitOneLowUs i items command) := by
  induction items generalizing i address command with
  | nil => rfl
  | cons item items ih => exact ih ..

/-- Setting a bit; positions from 16 on are lost in the conversion to 16 bits. -/
theorem getLsbD_orBit (word : BitVec 16) {i j : ℕ} (hi : i < 32) (hj : j < 16) :
    (orBit word i).getLsbD j = (word.getLsbD j || decide (i = j)) := by
  rw [orBit, BitVec.getLsbD_or, BitVec.getLsbD_setWidth, ← BitVec.twoPow_eq,
    BitVec.getLsbD_twoPow]
  simp [hi, hj]

/-- **A bit of a parsed word** is set exactly if the mark at its position exceeds the bound. -/
theorem getLsbD_wordFrom {us i j : ℕ} {items : List RmtItem} {word : BitVec 16}
    (hitems : i + items.length ≤ 32) (hj : j < 16) :
    (wordFrom us i items word).getLsbD j = true ↔
      word.getLsbD j = true ∨
        i ≤ j ∧ ∃ item, items[j - i]? = some item ∧ item.markExceeds us = true := by
  induction items generalizing i word with
  | nil => simp [wordFrom]
  | cons item items ih =>
      rw [List.length_cons] at hitems
      have hset : (if item.markExceeds us then orBit word i else word).getLsbD j = true ↔
          word.getLsbD j = true ∨ i = j ∧ item.markExceeds us = true := by
        cases item.markExceeds us with
        | false => simp
        | true => simp [getLsbD_orBit word (show i < 32 by omega) hj]
      rw [wordFrom, ih (by omega), hset]
      rcases Nat.lt_trichotomy i j with hlt | rfl | hgt
      · have hnext : (item :: items)[j - i]? = items[j - (i + 1)]? := by
          rw [show j - i = j - (i + 1) + 1 by omega, List.getElem?_cons_succ]
        rw [hnext]
        have hne : i ≠ j := by omega
        have hle : i ≤ j := by omega
        have hsucc : i + 1 ≤ j := hlt
        simp [hsucc, hne, hle]
      · have hnsucc : ¬ i + 1 ≤ i := by omega
        simp [hnsucc]
      · have hne : i ≠ j := by omega
        have hnle : ¬ i ≤ j := by omega
        have hnlt : ¬ i + 1 ≤ j := by omega
        simp [hne, hnle, hnlt]

/-- What `nec_parser_frame` returns. -/
theorem necParserFrame_eq (t : NecTiming) (items : List RmtItem) :
    necParserFrame t items =
      (wordFrom t.bitOneHighUs 0 items 0, wordFrom t.bitOneLowUs 0 items 0) :=
  parserLoop_eq ..

/-- A mark that exceeds a bound exceeds every smaller one. -/
theorem markExceeds_mono {item : RmtItem} {us us' : ℕ} (hle : us ≤ us')
    (h : item.markExceeds us' = true) : item.markExceeds us = true := by
  simp only [RmtItem.markExceeds, Bool.and_eq_true, decide_eq_true_eq] at h ⊢
  exact ⟨h.1, by omega⟩

/-- **No sender can do better.**  With the bound of the address at most that of the command, every
bit of a parsed command is one of the address too, whatever the items are. -/
theorem address_of_command {t : NecTiming} {items : List RmtItem} {j : ℕ}
    (hbound : t.bitOneHighUs ≤ t.bitOneLowUs) (hitems : items.length ≤ 32) (hj : j < 16)
    (h : (necParserFrame t items).2.getLsbD j = true) :
    (necParserFrame t items).1.getLsbD j = true := by
  have hlength : 0 + items.length ≤ 32 := by omega
  rw [necParserFrame_eq, getLsbD_wordFrom hlength hj] at h ⊢
  obtain hzero | ⟨hle, item, hitem, hmark⟩ := h
  · exact Or.inl hzero
  · exact Or.inr ⟨hle, item, hitem, markExceeds_mono hbound hmark⟩

/-- The positions `i` for which the parser shifts a bit. -/
def usedPositions (t : NecTiming) (items : List RmtItem) : List ℕ :=
  (List.range items.length).filter fun i =>
    (items[i]?).any fun item => item.markExceeds t.bitOneHighUs || item.markExceeds t.bitOneLowUs

/-! ### The frames of the sender -/

/-- The mark of the header. -/
def NecTiming.headerMark (t : NecTiming) : ℕ := (t.ticks t.headerHighUs).toNat

/-- The mark of each of the sixteen other items. -/
def NecTiming.oneMark (t : NecTiming) : ℕ := (t.ticks t.bitOneHighUs).toNat

/-- The word that a frame stands for under a bound: the header gives bit 0, the one-marks give the
bits 1–15, all alike. -/
def NecTiming.frameWord (t : NecTiming) (us : ℕ) : BitVec 16 :=
  (if us < t.headerMark then 1 else 0) ||| (if us < t.oneMark then 0xFFFE else 0)

theorem length_necSendFrame (t : NecTiming) (address command : BitVec 16) :
    (necSendFrame t address command).length = 17 := rfl

theorem necSendFrame_zero (t : NecTiming) (address command : BitVec 16) :
    (necSendFrame t address command)[0]? = some (necBuildItem t t.headerHighUs t.headerLowUs) :=
  rfl

theorem necSendFrame_succ (t : NecTiming) (address command : BitVec 16) {i : ℕ} (hi : i < 16) :
    (necSendFrame t address command)[i + 1]? =
      some (necBuildItem t t.bitOneHighUs t.bitOneLowUs) := by
  rw [necSendFrame, List.getElem?_cons_succ, List.getElem?_replicate_of_lt hi]

theorem markExceeds_necBuildItem (t : NecTiming) (highUs lowUs us : ℕ) :
    (necBuildItem t highUs lowUs).markExceeds us = decide (us < (t.ticks highUs).toNat) :=
  rfl

/-- Bit 0 of a frame's word. -/
theorem getLsbD_frameWord_zero (t : NecTiming) (us : ℕ) :
    (t.frameWord us).getLsbD 0 = true ↔ us < t.headerMark := by
  unfold NecTiming.frameWord
  split_ifs with hheader hone hone <;> simp [hheader]

/-- The bits 1–15 of a frame's word. -/
theorem getLsbD_frameWord_succ (t : NecTiming) (us : ℕ) {j : ℕ} (hj : j + 1 < 16) :
    (t.frameWord us).getLsbD (j + 1) = true ↔ us < t.oneMark := by
  have hones : ∀ k : ℕ, k < 15 → (0xFFFE : BitVec 16).getLsbD (k + 1) = true := by decide
  unfold NecTiming.frameWord
  rw [BitVec.getLsbD_or]
  split_ifs with hheader hone hone
  · simp only [hones j (by omega), hone, Bool.or_true]
  · simp [hone]
  · simp only [hones j (by omega), hone, Bool.or_true]
  · simp [hone]

/-- One word of a parsed frame. -/
theorem wordFrom_necSendFrame (t : NecTiming) (us : ℕ) (address command : BitVec 16) :
    wordFrom us 0 (necSendFrame t address command) 0 = t.frameWord us := by
  apply BitVec.eq_of_getLsbD_eq
  intro j hj
  have hlength : 0 + (necSendFrame t address command).length ≤ 32 := by
    rw [length_necSendFrame]
    omega
  rw [Bool.eq_iff_iff, getLsbD_wordFrom hlength hj]
  cases j with
  | zero =>
      rw [getLsbD_frameWord_zero, NecTiming.headerMark]
      simp [necSendFrame_zero, markExceeds_necBuildItem]
  | succ j =>
      rw [getLsbD_frameWord_succ t us hj, NecTiming.oneMark]
      simp [necSendFrame_succ t address command (show j < 16 by omega), markExceeds_necBuildItem]

/-- **What a frame is parsed to.**  The words depend on the timing constants alone. -/
theorem necParserFrame_necSendFrame (t : NecTiming) (address command : BitVec 16) :
    necParserFrame t (necSendFrame t address command) =
      (t.frameWord t.bitOneHighUs, t.frameWord t.bitOneLowUs) := by
  rw [necParserFrame_eq, wordFrom_necSendFrame, wordFrom_necSendFrame]

/-- The last item of a frame is at position 16. -/
theorem usedPositions_le_iff (t : NecTiming) (address command : BitVec 16) :
    (∀ i ∈ usedPositions t (necSendFrame t address command), i ≤ 15) ↔
      t.oneMark ≤ t.bitOneHighUs ∧ t.oneMark ≤ t.bitOneLowUs := by
  have hlast := necSendFrame_succ t address command (show 15 < 16 by omega)
  constructor
  · intro hused
    by_contra hnot
    have hmem : 16 ∈ usedPositions t (necSendFrame t address command) := by
      rw [usedPositions, List.mem_filter, List.mem_range, length_necSendFrame, hlast]
      refine ⟨by omega, ?_⟩
      simp only [Option.any_some, markExceeds_necBuildItem, Bool.or_eq_true, decide_eq_true_eq]
      unfold NecTiming.oneMark at hnot
      omega
    have := hused 16 hmem
    omega
  · rintro ⟨hhigh, hlow⟩ i hi
    rw [usedPositions, List.mem_filter, List.mem_range, length_necSendFrame] at hi
    by_contra hgt
    obtain rfl : i = 16 := by omega
    rw [hlast] at hi
    simp only [Option.any_some, markExceeds_necBuildItem, Bool.or_eq_true, decide_eq_true_eq]
      at hi
    unfold NecTiming.oneMark at hhigh hlow
    omega

/-- **Which frames decode to what was encoded.**  The round trip holds for the one pair of words
that every frame stands for, no two pairs are written differently, and the parser stays within
16 bits exactly if no one-mark exceeds a bound. -/
theorem necFrame_iff (t : NecTiming) (address command : BitVec 16) :
    (necParserFrame t (necSendFrame t address command) = (address, command) ↔
        address = t.frameWord t.bitOneHighUs ∧ command = t.frameWord t.bitOneLowUs) ∧
      (∀ address' command',
        necSendFrame t address' command' = necSendFrame t address command) ∧
      ((∀ i ∈ usedPositions t (necSendFrame t address command), i ≤ 15) ↔
        t.oneMark ≤ t.bitOneHighUs ∧ t.oneMark ≤ t.bitOneLowUs) := by
  refine ⟨?_, fun _ _ => rfl, usedPositions_le_iff t address command⟩
  rw [necParserFrame_necSendFrame, Prod.mk.injEq, eq_comm, @eq_comm _ _ command]

/-- Usual values of the constants, with a tick of 10 µs counted as 10. -/
def usualTiming : NecTiming where
  headerHighUs := 9000
  headerLowUs := 4500
  bitOneHighUs := 560
  bitOneLowUs := 1690
  rmtTick10Us := 10

/-- The first two codes of `init_nec_codes` are written as the same items, and the first is parsed
as (1, 1). -/
theorem necCodes_lost :
    necParserFrame usualTiming (necSendFrame usualTiming 0x0440 0x3003) = (1, 1) ∧
      (1, 1) ≠ ((0x0440, 0x3003) : BitVec 16 × BitVec 16) ∧
      necSendFrame usualTiming 0x0440 0x3003 = necSendFrame usualTiming 0x0450 0x3103 := by
  decide +kernel

end Sicae
