import AssetBundler.Ini.Blocks
import Mathlib.Data.List.TakeWhile

/-!
Octets of a text are read back as the text, also when they come in blocks, and octets that are read
to the end are those of the text that was read.
-/

namespace AssetBundler.Utf8

section Octets

theorem toList_loop_eq (bytes : ByteArray) (place : Nat) (before : List UInt8) :
    ByteArray.toList.loop bytes place before = before.reverse ++ bytes.data.toList.drop place := by
  fun_induction ByteArray.toList.loop bytes place before with
  | case1 place before inside inductionHypothesis =>
      have within : place < bytes.data.toList.length := by simpa using inside
      have here : bytes.get! place = bytes.data.toList[place] := by
        simp only [ByteArray.get!, Array.getElem_toList]
        exact getElem!_pos bytes.data place (by simpa using inside)
      rw [inductionHypothesis, List.drop_eq_getElem_cons within, here]
      simp
  | case2 place before outside =>
      rw [List.drop_eq_nil_of_le (by simpa using Nat.le_of_not_lt outside), List.append_nil]

/-- The octets of characters. -/
def octets (text : List Char) : Bytes := text.flatMap String.utf8EncodeChar

theorem encode_eq (text : String) : encode text = octets text.toList := by
  rw [encode, ByteArray.toList, toList_loop_eq, String.toUTF8_eq_toByteArray,
    ← String.utf8Encode_toList, List.utf8Encode, List.toList_data_toByteArray]
  simp [octets]

/-- The octets of the character with a code. -/
def codeOctets (code : Nat) : Bytes :=
  if code ≤ 0x7F then [.ofNat code]
  else if code ≤ 0x7FF then [.ofNat (code / 64 % 32 + 192), .ofNat (code % 64 + 128)]
  else if code ≤ 0xFFFF then
    [.ofNat (code / 4096 % 16 + 224), .ofNat (code / 64 % 64 + 128), .ofNat (code % 64 + 128)]
  else
    [.ofNat (code / 262144 % 8 + 240), .ofNat (code / 4096 % 64 + 128),
      .ofNat (code / 64 % 64 + 128), .ofNat (code % 64 + 128)]

theorem encodeChar_eq (c : Char) : String.utf8EncodeChar c = codeOctets c.toNat := rfl

theorem encodeChar_ofNat {code : Nat} (valid : code.isValidChar) :
    String.utf8EncodeChar (Char.ofNat code) = codeOctets code := by
  rw [encodeChar_eq]
  congr 1
  rw [Char.ofNat, dif_pos valid]
  rfl

/-- What a first octet announces. The tightest ranges keep out long forms, surrogates and codes
that are too large. -/
theorem exists_of_announce {first length low high : Nat}
    (announced : announce first = some (length, low, high)) :
    0x80 ≤ low ∧ high ≤ 0xBF ∧
      (length = 2 ∧ 0xC2 ≤ first ∧ first < 0xE0 ∨
        length = 3 ∧ 0xE0 ≤ first ∧ first < 0xF0 ∧ (first = 0xE0 → low = 0xA0) ∧
            (first = 0xED → high = 0x9F) ∨
        length = 4 ∧ 0xF0 ≤ first ∧ first ≤ 0xF4 ∧ (first = 0xF0 → low = 0x90) ∧
            (first = 0xF4 → high = 0x8F)) := by
  unfold announce at announced
  split_ifs at announced
  all_goals
    cases announced
    omega

theorem isContinuation_iff {byte : UInt8} :
    isContinuation byte = true ↔ 0x80 ≤ byte.toNat ∧ byte.toNat ≤ 0xBF := by
  simp [isContinuation]

theorem ofNat_eq {n : Nat} {byte : UInt8} (same : n = byte.toNat) : UInt8.ofNat n = byte := by
  rw [same, UInt8.ofNat_toNat]

/-- A sequence that is read has the octets of its code. -/
theorem codeOctets_codeOf {first second : UInt8} {further : Bytes} {low high : Nat}
    (announced : announce first.toNat = some (further.length + 2, low, high))
    (above : low ≤ second.toNat) (below : second.toNat ≤ high)
    (continued : ∀ byte ∈ further, isContinuation byte = true) :
    let code := codeOf (further.length + 2) first.toNat (second :: further)
    code.isValidChar ∧ codeOctets code = first :: second :: further := by
  obtain ⟨lowest, highest, kind⟩ := exists_of_announce announced
  match further, continued, kind with
  | [], continued, .inl ⟨_, start, stop⟩ =>
      intro code
      have value : code = first.toNat % 32 * 64 + second.toNat % 64 := rfl
      refine ⟨Or.inl (by omega), ?_⟩
      rw [codeOctets, if_neg (by omega), if_pos (by omega), ofNat_eq, ofNat_eq]
      all_goals omega
  | [third], continued, .inr (.inl ⟨_, start, stop, least, most⟩) =>
      have thirdRange := isContinuation_iff.mp (continued third (by simp))
      intro code
      have value : code = (first.toNat % 16 * 64 + second.toNat % 64) * 64 + third.toNat % 64 :=
        rfl
      refine ⟨?_, ?_⟩
      · rw [Nat.isValidChar]
        omega
      · rw [codeOctets, if_neg (by omega), if_neg (by omega), if_pos (by omega), ofNat_eq, ofNat_eq,
          ofNat_eq]
        all_goals omega
  | [third, fourth], continued, .inr (.inr ⟨_, start, stop, least, most⟩) =>
      have thirdRange := isContinuation_iff.mp (continued third (by simp))
      have fourthRange := isContinuation_iff.mp (continued fourth (by simp))
      intro code
      have value : code =
          ((first.toNat % 8 * 64 + second.toNat % 64) * 64 + third.toNat % 64) * 64 +
            fourth.toNat % 64 := rfl
      refine ⟨?_, ?_⟩
      · rw [Nat.isValidChar]
        omega
      · rw [codeOctets, if_neg (by omega), if_neg (by omega), if_neg (by omega), ofNat_eq, ofNat_eq,
          ofNat_eq, ofNat_eq]
        all_goals omega

end Octets

section Reading

/-- A first octet and the octets after it are those of a character. -/
structure IsSequence (c : Char) (first : UInt8) (rest : Bytes) : Prop where
  whole : ∀ behind, head first (rest ++ behind) = .char c (rest.length + 1)
  cut : ∀ part missing, rest = part ++ missing → missing ≠ [] → head first part = .cut

/-- A first octet with as many octets after it as it announces. -/
theorem isSequence_of_announce {c : Char} {first second : UInt8} {further : Bytes} {low high : Nat}
    (announced : announce first.toNat = some (further.length + 2, low, high))
    (above : low ≤ second.toNat) (below : second.toNat ≤ high) (wide : 0x80 ≤ first.toNat)
    (continued : ∀ byte ∈ further, isContinuation byte = true)
    (code : Char.ofNat (codeOf (further.length + 2) first.toNat (second :: further)) = c) :
    IsSequence c first (second :: further) where
  whole behind := by
    have inRange : ¬ (second.toNat < low ∨ high < second.toNat) := by omega
    have all : further.takeWhile isContinuation = further :=
      List.takeWhile_eq_self_iff.mpr continued
    rw [List.cons_append, head, if_neg (by omega), announced]
    simp only [inRange, if_false, Nat.add_sub_cancel, List.take_left, all, if_true, code,
      List.length_cons]
  cut part missing shape lacks := by
    rw [head, if_neg (by omega), announced]
    cases part with
    | nil => rfl
    | cons next more =>
        obtain ⟨rfl, rfl⟩ : second = next ∧ further = more ++ missing := by simpa using shape
        have inRange : ¬ (second.toNat < low ∨ high < second.toNat) := by omega
        have short : more.length ≤ (more ++ missing).length := by simp
        have all : more.takeWhile isContinuation = more :=
          List.takeWhile_eq_self_iff.mpr fun byte member =>
            continued byte (List.mem_append_left _ member)
        have lacking : more.length ≠ (more ++ missing).length := by
          have := List.length_pos_iff.mpr lacks
          rw [List.length_append]
          omega
        simp only [inRange, if_false, Nat.add_sub_cancel, List.take_of_length_le short, all,
          lacking, if_true]

theorem isContinuation_ofNat (n : Nat) : isContinuation (UInt8.ofNat (n % 64 + 128)) = true := by
  have small : (UInt8.ofNat (n % 64 + 128)).toNat = n % 64 + 128 := by
    rw [UInt8.toNat_ofNat']
    omega
  simp only [isContinuation, small, Bool.and_eq_true, decide_eq_true_eq]
  omega

/-- The octets of a character are read as the character. -/
theorem exists_sequence (c : Char) :
    ∃ first rest, String.utf8EncodeChar c = first :: rest ∧ IsSequence c first rest := by
  have valid : c.toNat < 0xD800 ∨ 0xDFFF < c.toNat ∧ c.toNat < 0x110000 := c.valid
  have same : Char.ofNat c.toNat = c := Char.ofNat_toNat c
  rw [encodeChar_eq, codeOctets]
  generalize c.toNat = n at *
  have small (m : Nat) : (UInt8.ofNat m).toNat = m % 256 := UInt8.toNat_ofNat'
  split_ifs with one two three
  · refine ⟨_, [], rfl, fun behind => ?_, fun part missing shape lacks => ?_⟩
    · have isSmall : (UInt8.ofNat n).toNat = n := by rw [small]; omega
      rw [List.nil_append, head, if_pos (by omega), isSmall, same, List.length_nil]
    · exact absurd (List.append_eq_nil_iff.mp shape.symm).2 lacks
  · have first : (UInt8.ofNat (n / 64 % 32 + 192)).toNat = n / 64 + 192 := by rw [small]; omega
    have second : (UInt8.ofNat (n % 64 + 128)).toNat = n % 64 + 128 := by rw [small]; omega
    have announced : announce (n / 64 + 192) = some (2, 0x80, 0xBF) := by
      rw [announce, if_neg (by omega), if_pos (by omega)]
    refine ⟨_, _, rfl, @isSequence_of_announce c _ _ [] _ _ (first.symm ▸ announced)
      (show 0x80 ≤ _ by omega) (show _ ≤ 0xBF by omega) (by omega) (by simp) ?_⟩
    rw [← same]
    apply congrArg Char.ofNat
    simp only [codeOf, List.length_nil, List.foldl_cons, List.foldl_nil, first, second,
      Nat.zero_add, if_true]
    omega
  · have first : (UInt8.ofNat (n / 4096 % 16 + 224)).toNat = n / 4096 + 224 := by rw [small]; omega
    have second : (UInt8.ofNat (n / 64 % 64 + 128)).toNat = n / 64 % 64 + 128 := by
      rw [small]; omega
    have third : (UInt8.ofNat (n % 64 + 128)).toNat = n % 64 + 128 := by rw [small]; omega
    obtain ⟨low, high, announced, above, below⟩ : ∃ low high,
        announce (n / 4096 + 224) = some (3, low, high) ∧ low ≤ n / 64 % 64 + 128 ∧
          n / 64 % 64 + 128 ≤ high := by
      rw [announce, if_neg (by omega), if_neg (by omega)]
      split_ifs
      all_goals first | exact ⟨_, _, rfl, by omega, by omega⟩ | omega
    refine ⟨_, _, rfl, isSequence_of_announce (first.symm ▸ announced) (second.symm ▸ above)
      (second.symm ▸ below) (by omega)
      (List.forall_mem_singleton.mpr (isContinuation_ofNat n)) ?_⟩
    rw [← same]
    apply congrArg Char.ofNat
    simp only [codeOf, List.length_cons, List.length_nil, List.foldl_cons, List.foldl_nil, first,
      second, third, Nat.reduceAdd, Nat.reduceEqDiff, if_false, if_true]
    omega
  · have first : (UInt8.ofNat (n / 262144 % 8 + 240)).toNat = n / 262144 + 240 := by
      rw [small]; omega
    have second : (UInt8.ofNat (n / 4096 % 64 + 128)).toNat = n / 4096 % 64 + 128 := by
      rw [small]; omega
    have third : (UInt8.ofNat (n / 64 % 64 + 128)).toNat = n / 64 % 64 + 128 := by
      rw [small]; omega
    have fourth : (UInt8.ofNat (n % 64 + 128)).toNat = n % 64 + 128 := by rw [small]; omega
    obtain ⟨low, high, announced, above, below⟩ : ∃ low high,
        announce (n / 262144 + 240) = some (4, low, high) ∧ low ≤ n / 4096 % 64 + 128 ∧
          n / 4096 % 64 + 128 ≤ high := by
      rw [announce, if_neg (by omega), if_neg (by omega), if_neg (by omega), if_neg (by omega),
        if_neg (by omega)]
      split_ifs
      all_goals first | exact ⟨_, _, rfl, by omega, by omega⟩ | omega
    refine ⟨_, _, rfl, isSequence_of_announce (first.symm ▸ announced) (second.symm ▸ above)
      (second.symm ▸ below) (by omega)
      (List.forall_mem_cons.mpr ⟨isContinuation_ofNat _,
        List.forall_mem_singleton.mpr (isContinuation_ofNat n)⟩) ?_⟩
    rw [← same]
    apply congrArg Char.ofNat
    simp only [codeOf, List.length_cons, List.length_nil, List.foldl_cons, List.foldl_nil, first,
      second, third, fourth, Nat.reduceAdd, Nat.reduceEqDiff, if_false]
    omega

theorem octets_eq_nil {text : List Char} (nothing : octets text = []) : text = [] := by
  cases text with
  | nil => rfl
  | cons c text =>
      obtain ⟨first, rest, sequence, -⟩ := exists_sequence c
      rw [octets, List.flatMap_cons, sequence] at nothing
      cases nothing

/-- The start of the octets of a text is read up to a character that is cut off. -/
theorem scanFrom_prefix {text : List Char} {bytes later : Bytes}
    (shape : octets text = bytes ++ later) (before : List Char) :
    ∃ done waiting, text = done ++ waiting ∧
      (scanFrom before bytes).text = before.reverse ++ done ∧
      octets waiting = (scanFrom before bytes).rest ++ later ∧
      (later = [] → (scanFrom before bytes).rest = []) ∧
      Ini.isHeld (scanFrom before bytes) = true := by
  induction text generalizing bytes before with
  | nil =>
      obtain ⟨rfl, rfl⟩ := List.append_eq_nil_iff.mp shape.symm
      exact ⟨[], [], rfl, by simp [scanFrom], by simp [scanFrom, octets], by simp [scanFrom],
        by simp [scanFrom, Ini.isHeld]⟩
  | cons c text inductionHypothesis =>
      obtain ⟨first, rest, sequence, reads⟩ := exists_sequence c
      have split : first :: rest ++ octets text = bytes ++ later := by
        rw [← sequence, ← shape]
        rfl
      have passed (more : Bytes) (followed : octets text = more ++ later) :
          ∃ done waiting, c :: text = done ++ waiting ∧
            (scanFrom before (first :: rest ++ more)).text = before.reverse ++ done ∧
            octets waiting = (scanFrom before (first :: rest ++ more)).rest ++ later ∧
            (later = [] → (scanFrom before (first :: rest ++ more)).rest = []) ∧
            Ini.isHeld (scanFrom before (first :: rest ++ more)) = true := by
        have next : scanFrom before (first :: rest ++ more) = scanFrom (c :: before) more := by
          rw [List.cons_append, scanFrom, reads.whole]
          simp
        obtain ⟨done, waiting, parts, taken, others⟩ := inductionHypothesis followed (c :: before)
        rw [next]
        exact ⟨c :: done, waiting, by rw [parts]; rfl, by simpa using taken, others⟩
      obtain ⟨more, rfl, followed⟩ | ⟨part, whole, rfl⟩ := List.append_eq_append_iff.mp split
      · exact passed more followed
      · by_cases isWhole : part = []
        · subst isWhole
          rw [List.append_nil] at whole
          subst whole
          simpa using passed [] rfl
        · cases bytes with
          | nil => exact ⟨[], c :: text, rfl, by simp [scanFrom], by simpa [scanFrom] using shape,
              by simp [scanFrom], by simp [scanFrom, Ini.isHeld]⟩
          | cons start more =>
              obtain ⟨rfl, rfl⟩ := List.cons_eq_cons.mp whole
              have stops : scanFrom before (first :: more) =
                  ⟨before.reverse, first :: more, .cut⟩ := by
                rw [scanFrom, reads.cut more part rfl isWhole]
              rw [stops]
              exact ⟨[], c :: text, rfl, by simp, shape, by simp [isWhole], by simp [Ini.isHeld]⟩

end Reading

section Soundness

/-- What is read at the start of octets is the character whose octets these are. -/
theorem encodeChar_of_head {first : UInt8} {rest : Bytes} {c : Char} {length : Nat}
    (read : head first rest = .char c length) :
    String.utf8EncodeChar c ++ rest.drop (length - 1) = first :: rest := by
  rw [head] at read
  split at read
  · next small =>
    cases read
    rw [encodeChar_ofNat (Or.inl (by omega)), codeOctets, if_pos (by omega), ofNat_eq rfl]
    rfl
  · next wide =>
    split at read
    · cases read
    · next count low high announced =>
      obtain ⟨lowest, highest, kind⟩ := exists_of_announce announced
      split at read
      · cases read
      · next second more =>
        split at read
        · cases read
        · next inRange =>
          simp only at read
          split at read
          · next whole =>
            cases read
            obtain ⟨left, parts⟩ := (@List.takeWhile_prefix _ (more.take (length - 2))
              isContinuation).trans (List.take_prefix (length - 2) more)
            generalize furtherIs : (more.take (length - 2)).takeWhile isContinuation = further at *
            have count : length = further.length + 2 := by omega
            subst count
            have continued : ∀ byte ∈ further, isContinuation byte = true := by
              rw [← furtherIs]
              exact fun byte member => List.mem_takeWhile_imp member
            obtain ⟨valid, octets⟩ := codeOctets_codeOf announced
              (show low ≤ second.toNat by omega) (show second.toNat ≤ high by omega) continued
            rw [encodeChar_ofNat valid, octets, ← parts]
            simp
          · split at read <;> cases read
/-- The text that was read and the octets that are left make up the octets. -/
theorem scanFrom_sound (before : List Char) (bytes : Bytes) :
    octets (scanFrom before bytes).text ++ (scanFrom before bytes).rest =
      octets before.reverse ++ bytes := by
  fun_induction scanFrom before bytes with
  | case1 before => rfl
  | case2 before first rest c length read inductionHypothesis =>
      rw [inductionHypothesis, ← encodeChar_of_head read]
      simp [octets]
  | case3 before first rest cut => rfl
  | case4 before first rest length reason malformed => rfl

/-- What a reader has left is where it stops at once. -/
theorem scan_rest (before : List Char) (bytes : Bytes) :
    scan (scanFrom before bytes).rest =
      ⟨[], (scanFrom before bytes).rest, (scanFrom before bytes).cause⟩ := by
  fun_induction scanFrom before bytes with
  | case1 before => simp [scan, scanFrom]
  | case2 before first rest c length read inductionHypothesis => exact inductionHypothesis
  | case3 before first rest cut => simp [scan, scanFrom, cut]
  | case4 before first rest length reason malformed => simp [scan, scanFrom, malformed]

theorem rest_of_complete {before : List Char} {bytes : Bytes}
    (complete : (scanFrom before bytes).cause = .complete) : (scanFrom before bytes).rest = [] := by
  fun_induction scanFrom before bytes with
  | case1 before => rfl
  | case2 before first rest c length read inductionHypothesis => exact inductionHypothesis complete
  | case3 before first rest cut => cases complete
  | case4 before first rest length reason malformed => cases complete

end Soundness

end AssetBundler.Utf8

namespace AssetBundler.Ini

open Utf8

/-- Blocks of the octets of a text are read as the text. -/
theorem decodeBlocks_octets {text : List Char} {held bytes : Bytes}
    (shape : octets text = held ++ bytes) (settled : bytes = [] → held = []) :
    decodeBlocks held bytes = ⟨text, none⟩ := by
  fun_induction decodeBlocks held bytes generalizing text with
  | case1 held =>
      cases settled rfl
      rw [octets_eq_nil shape]
      simp [faultOf, decode, scan, scanFrom]
  | case2 held bytes filled block scanned isHeld later =>
      rename_i inductionHypothesis
      have parted : octets text = block ++ bytes.drop blockSize := by
        rw [shape, List.append_assoc, List.take_append_drop]
      obtain ⟨done, waiting, rfl, taken, left, settles, -⟩ := scanFrom_prefix parted []
      have rest : later = ⟨waiting, none⟩ := inductionHypothesis left settles
      rw [rest, show scanned.text = done from taken]
  | case3 held bytes filled block scanned =>
      rename_i stuck
      have parted : octets text = block ++ bytes.drop blockSize := by
        rw [shape, List.append_assoc, List.take_append_drop]
      obtain ⟨-, -, -, -, -, -, isHeld⟩ := scanFrom_prefix parted []
      exact absurd isHeld stuck

theorem faultOf_eq_none {bytes : Bytes} (sound : faultOf bytes = none) :
    (scan bytes).cause = .complete := by
  cases stopped : (scan bytes).cause with
  | complete => rfl
  | cut => simp [faultOf, decode, stopped] at sound
  | malformed length reason => simp [faultOf, decode, stopped] at sound

/-- Octets without a fault are those of the text that was read. -/
theorem octets_of_decodeBlocks {held bytes : Bytes}
    (waits : faultOf held = none → held = [])
    (sound : (decodeBlocks held bytes).fault = none) :
    octets (decodeBlocks held bytes).text = held ++ bytes := by
  fun_induction decodeBlocks held bytes with
  | case1 held =>
      rw [waits sound]
      rfl
  | case2 held bytes filled block scanned isHeld later =>
      rename_i inductionHypothesis
      have settles : faultOf scanned.rest = none → scanned.rest = [] := by
        intro noFault
        have complete := faultOf_eq_none noFault
        rw [show scanned = scanFrom [] block from rfl, scan_rest] at complete
        exact rest_of_complete complete
      have read := scanFrom_sound [] block
      rw [octets, List.flatMap_append, ← octets, ← octets, inductionHypothesis settles sound,
        ← List.append_assoc, show scanned = scanFrom [] block from rfl, read]
      simp [octets, block]
  | case3 held bytes filled block scanned =>
      rename_i stuck
      have complete := faultOf_eq_none sound
      exact absurd (by simp [isHeld, scanned, complete]) stuck

theorem decodeBlocks_encode (text : String) :
    decodeBlocks [] (encode text) = ⟨text.toList, none⟩ :=
  decodeBlocks_octets (encode_eq text).symm fun _ => rfl

/-- Octets have no fault when they are those of a text. -/
theorem decodeBlocks_fault_eq_none {bytes : Bytes} :
    (decodeBlocks [] bytes).fault = none ↔ ∃ text, bytes = encode text := by
  constructor
  · intro sound
    refine ⟨String.ofList (decodeBlocks [] bytes).text, ?_⟩
    rw [encode_eq, String.toList_ofList, octets_of_decodeBlocks (fun _ => rfl) sound,
      List.nil_append]
  · rintro ⟨text, rfl⟩
    rw [decodeBlocks_encode]

end AssetBundler.Ini
