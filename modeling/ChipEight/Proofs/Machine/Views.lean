import ChipEight.Machine.Dump
import ChipEight.Machine.Load
import ChipEight.Machine.Step
import ChipEight.Proofs.Listing.Lines
import ChipEight.Proofs.Memory.Block

/-!
# The views of a program

A program can be seen in four ways: as the text it was read from, in the listing of its
bytes, in the dump of the memory it was loaded into, and in what a machine executes and
logs there. A dump and a log show parts of listing lines, whatever machine they are taken
from; a loaded program has the bytes of its listing, so all four show the same words.
-/

namespace ChipEight.Machine

/-- A line of a dump is the beginning of the listing line of the word there. -/
theorem dumpLine_eq_take (m : Machine) {place : Nat} (h : place < 65536) :
    m.dumpLine place = (Listing.line place (m.memory.readWord place)).take 10 := by
  rw [dumpLine, Listing.line, Memory.readWord, Hex.word_ofBytes, Hex.padded_four h]
  rfl

/-- The log of a step traces the listing line of the executed word, without its word column. -/
theorem trace_stepLog (m : Machine) :
    m.stepLog.filter (·.level == .trace) =
      [⟨.trace, (Listing.line m.counter.toNat m.fetch).take 6 ++
        (Listing.line m.counter.toNat m.fetch).drop 12⟩] := by
  have hline : (Listing.line m.counter.toNat m.fetch).take 6 ++
      (Listing.line m.counter.toNat m.fetch).drop 12 =
        Hex.word m.counter ++ ": ".toList ++ m.nextInstruction.mnemonic.toList := by
    rw [Listing.line, Hex.padded_four m.counter.toNat_lt, UInt16.ofNat_toNat]
    rfl
  rw [hline, stepLog]
  cases m.nextInstruction <;> rfl

/-- A new machine with a program that fits. -/
def holding (config : Config) (key : Vector UInt32 8) (bytes : List UInt8) : Machine :=
  { new config key with memory := Memory.zero.writeBlock Memory.programStart bytes }

variable (config : Config) (key : Vector UInt32 8) {bytes : List UInt8}

theorem loadProgram_eq_holding (h : bytes.length ≤ 3584) :
    (new config key).loadProgram bytes = .ok (holding config key bytes) :=
  if_pos h

/-- A loaded byte lies as far behind the start of programs as in the program; behind the program
there are zeros. -/
theorem read_holding (h : bytes.length ≤ 3584) {offset : Nat} (ho : offset < 3584) :
    (holding config key bytes).memory.read (0x200 + offset) = bytes[offset]?.getD 0 := by
  have hread := Memory.zero.read_writeBlock_add Memory.programStart
    (show offset < 4096 by omega) (show bytes.length ≤ 4096 by omega)
  rw [Memory.read_zero] at hread
  exact hread

/-- The word of a loaded program in memory is its word in the listing. -/
theorem getElem?_wordsOf_holding (h : bytes.length ≤ 3584) {k : Nat} (hk : 2 * k < bytes.length) :
    (Listing.wordsOf bytes)[k]? =
      some ((holding config key bytes).memory.readWord (0x200 + 2 * k)) := by
  have hhigh := read_holding config key h (show 2 * k < 3584 by omega)
  have hlow := read_holding config key h (show 2 * k + 1 < 3584 by omega)
  rw [List.getElem?_eq_getElem hk, Option.getD_some] at hhigh
  rw [Listing.getElem?_wordsOf, List.getElem?_eq_getElem hk, Option.map_some, Memory.readWord,
    hhigh, Nat.add_assoc, hlow]

/-- Of a loaded program, as many places are dumped as it has words. -/
theorem getElem?_dumpPlaces (h : bytes.length ≤ 3584) (k : Nat) :
    (dumpPlaces bytes.length)[k]? =
      if 2 * k < bytes.length then some (0x200 + 2 * k) else none := by
  have hcount : (min (bytes.length + Memory.programStart) 4095 - Memory.programStart + 1) / 2 =
      (bytes.length + 1) / 2 := by
    unfold Memory.programStart
    omega
  simp only [dumpPlaces, hcount, List.getElem?_map]
  split
  · next hk =>
    rw [List.getElem?_range (by omega)]
    rfl
  · next hk =>
    rw [List.getElem?_eq_none (by rw [List.length_range]; omega)]
    rfl

theorem lineEnd_not_mem_dumpLine (m : Machine) (place : Nat) : '\n' ∉ m.dumpLine place := by
  simp [dumpLine, (Hex.allDigits_padded 4 place).lineEnd_not_mem,
    (Hex.allDigits_byte _).lineEnd_not_mem]

/-- The dump of a loaded program is the first ten characters of each line of its listing. -/
theorem lines_dumpMemory (h : bytes.length ≤ 3584) :
    Text.lines ((holding config key bytes).dumpMemory bytes.length) =
      (Listing.lines bytes).map (·.take 10) := by
  have hline : ∀ line ∈ (dumpPlaces bytes.length).map (holding config key bytes).dumpLine,
      '\n' ∉ line := by
    intro line hline
    obtain ⟨place, -, rfl⟩ := List.mem_map.mp hline
    exact lineEnd_not_mem_dumpLine _ _
  rw [dumpMemory, Text.lines_unlines hline]
  refine List.ext_getElem? fun k => ?_
  rw [List.getElem?_map, List.getElem?_map, getElem?_dumpPlaces h, Listing.getElem?_lines]
  by_cases hk : 2 * k < bytes.length
  · rw [if_pos hk, getElem?_wordsOf_holding config key h hk]
    exact congrArg some (dumpLine_eq_take _ (by omega))
  · rw [if_neg hk, Listing.getElem?_wordsOf, List.getElem?_eq_none (Nat.le_of_not_lt hk)]
    rfl

/-- A machine is about to execute a word and to log it as a line of a listing tells it. -/
structure Follows (m : Machine) (line : List Char) (w : UInt16) : Prop where
  /-- The word is the one that is read next. -/
  fetch : m.fetch = w
  /-- The step executes the instruction of the word. -/
  step : m.step = (m.goTo (m.counter + 2)).execute (.decode w)
  /-- The step traces the line without its word column. -/
  trace : m.stepLog.filter (·.level == .trace) = [⟨.trace, line.take 6 ++ line.drop 12⟩]

/-- A machine executes what the listing shows at its counter, if the two bytes there are those of
the loaded program. -/
theorem follows_of_read (h : bytes.length ≤ 3584) {k : Nat} (hk : 2 * k < bytes.length)
    {w : UInt16} (hw : (Listing.wordsOf bytes)[k]? = some w) {m : Machine}
    (hcounter : m.counter = UInt16.ofNat (0x200 + 2 * k))
    (hhigh : m.memory.read (0x200 + 2 * k) =
      (holding config key bytes).memory.read (0x200 + 2 * k))
    (hlow : m.memory.read (0x200 + 2 * k + 1) =
      (holding config key bytes).memory.read (0x200 + 2 * k + 1)) :
    m.Follows (Listing.line (0x200 + 2 * k) w) w := by
  have hplace : m.counter.toNat = 0x200 + 2 * k := by
    rw [hcounter]
    exact Nat.mod_eq_of_lt (by omega)
  have hfetch : m.fetch = w := by
    rw [getElem?_wordsOf_holding config key h hk] at hw
    rw [fetch, hplace, Memory.readWord, hhigh, hlow]
    exact Option.some.inj hw
  refine ⟨hfetch, ?_, ?_⟩
  · rw [← hfetch]
    rfl
  · have htrace := m.trace_stepLog
    rw [hplace, hfetch] at htrace
    exact htrace

/-- A program that fits is seen alike in all views. Its dump is the first ten characters of each
line of its listing. Any machine, however it came there, whose counter and the two bytes behind it
are those of line `k` executes the word in the second field of the line, and its log is the line
without that field. If the program was read from a text, the word is the number of token `k`. -/
theorem views_agree (config : Config) (key : Vector UInt32 8) {bytes : List UInt8}
    (h : bytes.length ≤ 3584) :
    ∃ loaded, (new config key).loadProgram bytes = .ok loaded ∧
      Text.lines (loaded.dumpMemory bytes.length) =
        (Text.lines (Listing.Reader.ofBytes bytes).all.1).map (·.take 10) ∧
      (Text.lines (loaded.dumpMemory bytes.length)).length = (bytes.length + 1) / 2 ∧
      ∀ k, 2 * k < bytes.length → ∃ line w,
        (Text.lines (Listing.Reader.ofBytes bytes).all.1)[k]? = some line ∧
        Text.field 1 line = Hex.word w ∧
        (∀ later : Machine, later.counter = UInt16.ofNat (0x200 + 2 * k) →
          later.memory.read (0x200 + 2 * k) = loaded.memory.read (0x200 + 2 * k) →
          later.memory.read (0x200 + 2 * k + 1) = loaded.memory.read (0x200 + 2 * k + 1) →
            later.Follows line w) ∧
        ∀ text, ProgramImage.read text = .ok bytes →
          ∃ token, (Text.words text)[k]? = some token ∧ Hex.number? token = some w.toNat := by
  have hlines : Text.lines (Listing.Reader.ofBytes bytes).all.1 = Listing.lines bytes := by
    rw [Listing.Reader.all_eq]
    exact Listing.lines_render bytes
  have hdump := lines_dumpMemory config key h
  refine ⟨holding config key bytes, loadProgram_eq_holding config key h,
    by rw [hdump, hlines], ?_, ?_⟩
  · rw [hdump, List.length_map, Listing.lines, Listing.length_linesFrom,
      Listing.length_wordsOf]
  · intro k hk
    have hw := getElem?_wordsOf_holding config key h hk
    obtain ⟨w, hword⟩ := Option.isSome_iff_exists.mp (Option.isSome_of_eq_some hw)
    refine ⟨Listing.line (0x200 + 2 * k) w, w, ?_, Listing.field_line _ _, ?_, ?_⟩
    · rw [hlines, Listing.getElem?_lines, hword]
      rfl
    · intro later hcounter hhigh hlow
      exact follows_of_read config key h hk hword hcounter hhigh hlow
    · intro text htext
      obtain ⟨token, high, low, htoken, hread, hhigh, hlow⟩ :=
        ProgramImage.getElem?_of_readWords htext hk
      refine ⟨token, htoken, ?_⟩
      rw [Listing.getElem?_wordsOf, hhigh, hlow] at hword
      rw [ProgramImage.number?_of_readWord hread, ← Option.some.inj hword]
      rfl

/-- A loaded program with an odd byte at its end. -/
def holdingOdd : Machine := holding .unset (Vector.replicate 8 0) [0x60, 0x0A, 0x12]

/-- Two tokens with digits of both kinds. -/
def twoTokens : List Char := ['6', '0', '0', 'a', '\t', '1', '2', 'F', 'f']

/-- Behind the first word of an odd program, a machine executes the last byte and the zero behind
it, as the last line tells; and the second token of a text has the number of the second word. -/
theorem views_agree_odd :
    ([0x60, 0x0A, 0x12] : List UInt8).length ≤ 3584 ∧
    (new .unset (Vector.replicate 8 0)).loadProgram [0x60, 0x0A, 0x12] = .ok holdingOdd ∧
    (∃ line, (Text.lines (Listing.Reader.ofBytes [0x60, 0x0A, 0x12]).all.1)[1]? = some line ∧
      holdingOdd.step.2.Follows line 0x1200) ∧
    ProgramImage.read twoTokens = .ok [0x60, 0x0A, 0x12, 0xFF] ∧
    ∃ line token w,
      (Text.lines (Listing.Reader.ofBytes [0x60, 0x0A, 0x12, 0xFF]).all.1)[1]? = some line ∧
      (Text.words twoTokens)[1]? = some token ∧
      Text.field 1 line = Hex.word w ∧ Hex.number? token = some w.toNat := by
  have hodd : ([0x60, 0x0A, 0x12] : List UInt8).length ≤ 3584 := by decide
  have heven : ([0x60, 0x0A, 0x12, 0xFF] : List UInt8).length ≤ 3584 := by decide
  have hread : ProgramImage.read twoTokens = .ok [0x60, 0x0A, 0x12, 0xFF] := by
    have hjoined : Text.Joined [['6', '0', '0', 'a'], ['1', '2', 'F', 'f']] twoTokens :=
      .more _ ['\t'] (by decide) (List.all_eq_true.mp (by decide)) (.last _)
    have hplain : ∀ w ∈ [['6', '0', '0', 'a'], ['1', '2', 'F', 'f']],
        w ≠ [] ∧ ∀ c ∈ w, Text.isBlank c = false := by
      simp [Text.isBlank, Text.blankRanges]
    rw [ProgramImage.read, Text.words_of_joined hjoined hplain]
    rfl
  refine ⟨hodd, loadProgram_eq_holding .unset (Vector.replicate 8 0) hodd, ?_, hread, ?_⟩
  · obtain ⟨loaded, hload, -, -, hviews⟩ := views_agree .unset (Vector.replicate 8 0) hodd
    obtain rfl : holdingOdd = loaded :=
      Except.ok.inj ((loadProgram_eq_holding .unset (Vector.replicate 8 0) hodd).symm.trans hload)
    obtain ⟨line, w, hline, -, hlater, -⟩ := hviews 1 (by decide)
    have hfollows := hlater holdingOdd.step.2 (by decide +kernel) (by decide +kernel)
      (by decide +kernel)
    have hfetch : holdingOdd.step.2.fetch = 0x1200 := by decide +kernel
    obtain rfl : w = 0x1200 := hfollows.fetch.symm.trans hfetch
    exact ⟨line, hline, hfollows⟩
  · obtain ⟨loaded, -, -, -, hviews⟩ := views_agree .unset (Vector.replicate 8 0) heven
    obtain ⟨line, w, hline, hfield, -, htokens⟩ := hviews 1 (by decide)
    obtain ⟨token, htoken, hnumber⟩ := htokens _ hread
    exact ⟨line, token, w, hline, htoken, hfield, hnumber⟩

end ChipEight.Machine
