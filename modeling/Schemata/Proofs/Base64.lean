import Schemata.Base64
import Schemata.Proofs.Attempt

/-!
# Base64 read back

Reading the text of some bytes gives these bytes, and no other text is read as them. Three bytes
are written as four symbols and read as one group, and only the last group may be padded. The bits
of its last symbol that belong to no byte are zero, and so it is the one that is written.
-/
namespace Schemata

/-- Different texts have different bytes. -/
theorem Text.utf8_injective : Function.Injective Text.utf8 := by
  intro left right same
  have sameBytes : (String.ofList left).toByteArray = (String.ofList right).toByteArray := by
    rw [String.toByteArray_ofList, String.toByteArray_ofList]
    exact congrArg List.toByteArray same
  exact String.ofList_injective (String.toByteArray_inj.1 sameBytes)

namespace Base64

def symbolByte (value : Nat) : UInt8 :=
  (symbol value).toNat.toUInt8

private theorem symbol_lt_128 (value : Nat) : (symbol value).toNat < 128 := by
  have ascii : alphabet.all (fun c => c.toNat < 128) = true := by decide +kernel
  simp only [symbol, List.getD_eq_getElem?_getD]
  cases found : alphabet[value]? with
  | none => decide
  | some c => exact of_decide_eq_true (List.all_eq_true.1 ascii c (List.mem_of_getElem? found))

@[simp]
theorem utf8EncodeChar_symbol (value : Nat) :
    String.utf8EncodeChar (symbol value) = [symbolByte value] := by
  have small : (symbol value).val.toNat ≤ 127 := Nat.le_of_lt_succ (symbol_lt_128 value)
  simp only [String.utf8EncodeChar, if_pos small]
  rfl

@[simp]
theorem utf8EncodeChar_padding : String.utf8EncodeChar '=' = [paddingByte] := by
  decide

private theorem value?_symbolByte : ∀ value < 64, value? (symbolByte value) = some value := by
  decide +kernel

private theorem symbolByte_ne_paddingByte : ∀ value < 64, symbolByte value ≠ paddingByte := by
  decide +kernel

private theorem readSymbol_symbolByte {value : Nat} (small : value < 64) (offset : Nat) :
    readSymbol offset (symbolByte value) = .ok value := by
  simp [readSymbol, value?_symbolByte value small]

/-- The values of the four symbols of three bytes stand for these bytes. -/
theorem joinValues_split (a b c : UInt8) :
    joinValues (a.toNat / 4) (a.toNat % 4 * 16 + b.toNat / 16)
      (b.toNat % 16 * 4 + c.toNat / 64) (c.toNat % 64) = [a, b, c] := by
  have ha := a.toNat_lt
  have hb := b.toNat_lt
  have hc := c.toNat_lt
  have firstByte : a.toNat / 4 * 4 + (a.toNat % 4 * 16 + b.toNat / 16) / 16 = a.toNat := by
    omega
  have secondByte : (a.toNat % 4 * 16 + b.toNat / 16) % 16 * 16 +
      (b.toNat % 16 * 4 + c.toNat / 64) / 4 = b.toNat := by
    omega
  have thirdByte : (b.toNat % 16 * 4 + c.toNat / 64) % 4 * 64 + c.toNat % 64 = c.toNat := by
    omega
  have back (byte : UInt8) : byte.toNat.toUInt8 = byte := UInt8.ofNat_toNat
  simp only [joinValues, firstByte, secondByte, thirdByte, back]

/-- A last group is read as its symbols' values and the length of its padding, which may not
begin before the third place. -/
theorem readLastSymbols_symbols (offset padding : Nat) (values : List Nat) :
    ∀ index, (∀ value ∈ values, value < 64) →
      (padding = 0 ∨ 2 ≤ index + values.length) →
      readLastSymbols offset index
          (values.map symbolByte ++ List.replicate padding paddingByte) =
        .ok (values, padding) := by
  induction values with
  | nil =>
    intro index _ placed
    cases padding with
    | zero => rfl
    | succ padding =>
      have late : ¬ index < 2 := by
        simp only [List.length_nil] at placed
        omega
      simp [readLastSymbols, List.replicate_succ, late]
  | cons value values ih =>
    intro index small placed
    have rest := ih (index + 1) (fun v member => small v (List.mem_cons_of_mem _ member))
      (by simp only [List.length_cons] at placed; omega)
    have first := small value List.mem_cons_self
    rw [List.map_cons, List.cons_append, readLastSymbols,
      if_neg (symbolByte_ne_paddingByte value first), readSymbol_symbolByte first, rest]
    rfl

/-- A full group stands for three bytes, whether anything follows it or not. -/
theorem readGroups_full {p q r s : Nat} (hp : p < 64) (hq : q < 64) (hr : r < 64)
    (hs : s < 64) (offset : Nat) (rest : List UInt8) :
    readGroups offset (symbolByte p :: symbolByte q :: symbolByte r :: symbolByte s :: rest) =
      (readGroups (offset + 4) rest).map (joinValues p q r s ++ ·) := by
  cases rest with
  | nil =>
    have read := readLastSymbols_symbols offset 0 [p, q, r, s] 0
      (by simp [hp, hq, hr, hs]) (.inl rfl)
    simp only [List.map_cons, List.map_nil, List.replicate_zero, List.append_nil] at read
    rw [readGroups, readLastGroup, read]
    · rfl
    · simp
  | cons e rest =>
    rw [readGroups, readSymbol_symbolByte hp, readSymbol_symbolByte hq,
      readSymbol_symbolByte hr, readSymbol_symbolByte hs]
    cases readGroups (offset + 4) (e :: rest) <;> rfl

private theorem readGroups_two (a b : UInt8) (offset : Nat) :
    readGroups offset (Text.utf8 (encodeBytes [a, b])) = .ok [a, b] := by
  have ha := a.toNat_lt
  have hb := b.toNat_lt
  have read := readLastSymbols_symbols offset 1
    [a.toNat / 4, a.toNat % 4 * 16 + b.toNat / 16, b.toNat % 16 * 4] 0
    (by simp; omega) (.inr (by simp))
  have unused : b.toNat % 16 * 4 % 4 = 0 := by omega
  have joined := joinValues_split a b 0
  simp at joined read
  simp [encodeBytes, Text.utf8, readGroups, readLastGroup, read, bind, Except.bind, unused,
    joined]

private theorem readGroups_one (a : UInt8) (offset : Nat) :
    readGroups offset (Text.utf8 (encodeBytes [a])) = .ok [a] := by
  have ha := a.toNat_lt
  have read := readLastSymbols_symbols offset 2
    [a.toNat / 4, a.toNat % 4 * 16] 0 (by simp; omega) (.inr (by simp))
  have unused : a.toNat % 4 * 16 % 16 = 0 := by omega
  have joined := joinValues_split a 0 0
  simp at joined read
  simp [encodeBytes, Text.utf8, readGroups, readLastGroup, read, bind, Except.bind, unused,
    joined]

private theorem utf8_encodeBytes_cons (a b c : UInt8) (rest : List UInt8) :
    Text.utf8 (encodeBytes (a :: b :: c :: rest)) =
      symbolByte (a.toNat / 4) :: symbolByte (a.toNat % 4 * 16 + b.toNat / 16) ::
        symbolByte (b.toNat % 16 * 4 + c.toNat / 64) :: symbolByte (c.toNat % 64) ::
        Text.utf8 (encodeBytes rest) := by
  simp [encodeBytes, Text.utf8]

private theorem readGroups_utf8_encodeBytes (bytes : List UInt8) :
    ∀ offset, readGroups offset (Text.utf8 (encodeBytes bytes)) = .ok bytes := by
  induction bytes using encodeBytes.induct with
  | case1 a b c rest ih =>
    intro offset
    have ha := a.toNat_lt
    have hb := b.toNat_lt
    have hc := c.toNat_lt
    rw [utf8_encodeBytes_cons, readGroups_full (by omega) (by omega) (by omega) (by omega), ih,
      joinValues_split]
    rfl
  | case2 a b => exact readGroups_two a b
  | case3 a => exact readGroups_one a
  | case4 => exact fun offset => rfl

private theorem length_utf8_encodeBytes_mod (bytes : List UInt8) :
    (Text.utf8 (encodeBytes bytes)).length % 4 = 0 := by
  induction bytes using encodeBytes.induct with
  | case1 a b c rest ih =>
    rw [utf8_encodeBytes_cons]
    simp only [List.length_cons]
    omega
  | _ => simp [encodeBytes, Text.utf8]

/-- Reading the text of some bytes gives the bytes back. -/
theorem decode_encode (bytes : List UInt8) : decode (encode bytes) = .ok bytes := by
  have noLone : checkLone (Text.utf8 (encodeBytes bytes)) = .ok () := by
    unfold checkLone
    cases (Text.utf8 (encodeBytes bytes)).getLast? with
    | none => rfl
    | some byte => simp [length_utf8_encodeBytes_mod bytes]
  simp only [decode, encode, String.toList_ofList, noLone]
  exact readGroups_utf8_encodeBytes bytes 0

/-- A byte with a value is the symbol of that value. -/
theorem symbolByte_of_value? {byte : UInt8} {value : Nat} (found : value? byte = some value) :
    value < 64 ∧ symbolByte value = byte := by
  obtain ⟨inside, same, -⟩ := List.findIdx?_eq_some_iff_getElem.1 found
  refine ⟨inside, ?_⟩
  rw [symbolByte, symbol, List.getD_eq_getElem?_getD, List.getElem?_eq_getElem inside]
  exact of_decide_eq_true same

private theorem readSymbol_eq_ok_iff {offset : Nat} {byte : UInt8} {value : Nat} :
    readSymbol offset byte = .ok value ↔ value < 64 ∧ symbolByte value = byte := by
  constructor
  · intro read
    unfold readSymbol at read
    split at read
    · next found =>
      cases read
      exact symbolByte_of_value? found
    · cases read
  · rintro ⟨small, rfl⟩
    exact readSymbol_symbolByte small offset

/-- Symbols are read up to a padding that is followed by nothing else. -/
theorem symbols_of_readLastSymbols
    {offset index padding : Nat} {group : List UInt8} {values : List Nat}
    (read : readLastSymbols offset index group = .ok (values, padding)) :
    (∀ value ∈ values, value < 64) ∧
      group = values.map symbolByte ++ List.replicate padding paddingByte := by
  induction group generalizing index values with
  | nil =>
    cases read
    simp
  | cons byte rest hypothesis =>
    unfold readLastSymbols at read
    split at read
    · next isPadding =>
      split at read
      · cases read
      · next placed =>
        cases read
        have onlyPadding : ∀ other ∈ rest, other = paddingByte := by
          simpa using (not_or.1 placed).2
        refine ⟨by simp, ?_⟩
        rw [isPadding, List.map_nil, List.nil_append, List.replicate_succ,
          ← List.eq_replicate_of_mem onlyPadding]
    · obtain ⟨value, first, read⟩ := bind_eq_ok_iff.1 read
      obtain ⟨⟨others, _⟩, later, same⟩ := bind_eq_ok_iff.1 read
      cases same
      obtain ⟨small, symbol⟩ := readSymbol_eq_ok_iff.1 first
      obtain ⟨smallOthers, symbols⟩ := hypothesis later
      refine ⟨List.forall_mem_cons.2 ⟨small, smallOthers⟩, ?_⟩
      rw [symbols, List.map_cons, symbol, List.cons_append]

section Join

variable {p q r t : Nat}

private theorem toNat_firstByte (hp : p < 64) (hq : q < 64) :
    (p * 4 + q / 16).toUInt8.toNat = p * 4 + q / 16 :=
  UInt8.toNat_ofNat_of_lt' (by simp [UInt8.size]; omega)

private theorem toNat_secondByte (hr : r < 64) :
    (q % 16 * 16 + r / 4).toUInt8.toNat = q % 16 * 16 + r / 4 :=
  UInt8.toNat_ofNat_of_lt' (by simp [UInt8.size]; omega)

private theorem toNat_thirdByte (ht : t < 64) : (r % 4 * 64 + t).toUInt8.toNat = r % 4 * 64 + t :=
  UInt8.toNat_ofNat_of_lt' (by simp [UInt8.size]; omega)

/-- The bytes of four symbols are written with these symbols. -/
theorem encodeBytes_joinValues (hp : p < 64) (hq : q < 64) (hr : r < 64) (ht : t < 64)
    (rest : List UInt8) :
    encodeBytes (joinValues p q r t ++ rest) =
      symbol p :: symbol q :: symbol r :: symbol t :: encodeBytes rest := by
  have first : (p * 4 + q / 16) / 4 = p := by omega
  have second : (p * 4 + q / 16) % 4 * 16 + (q % 16 * 16 + r / 4) / 16 = q := by omega
  have third : (q % 16 * 16 + r / 4) % 16 * 4 + (r % 4 * 64 + t) / 64 = r := by omega
  have fourth : (r % 4 * 64 + t) % 64 = t := by omega
  simp only [joinValues, List.cons_append, List.nil_append, encodeBytes, toNat_firstByte hp hq,
    toNat_secondByte hr, toNat_thirdByte ht, first, second, third, fourth]

/-- So are two bytes, if the third symbol has no bits of a third byte. -/
theorem encodeBytes_joinValues_two (hp : p < 64) (hq : q < 64) (hr : r < 64)
    (unused : r % 4 = 0) :
    encodeBytes ((joinValues p q r 0).take 2) = [symbol p, symbol q, symbol r, '='] := by
  have first : (p * 4 + q / 16) / 4 = p := by omega
  have second : (p * 4 + q / 16) % 4 * 16 + (q % 16 * 16 + r / 4) / 16 = q := by omega
  have third : (q % 16 * 16 + r / 4) % 16 * 4 = r := by omega
  simp only [joinValues, List.take, encodeBytes, toNat_firstByte hp hq, toNat_secondByte hr,
    first, second, third]

/-- So is one byte, if the second symbol has no bits of a second byte. -/
theorem encodeBytes_joinValues_one (hp : p < 64) (hq : q < 64) (unused : q % 16 = 0) :
    encodeBytes ((joinValues p q 0 0).take 1) = [symbol p, symbol q, '=', '='] := by
  have first : (p * 4 + q / 16) / 4 = p := by omega
  have second : (p * 4 + q / 16) % 4 * 16 = q := by omega
  simp only [joinValues, List.take, encodeBytes, toNat_firstByte hp hq, first, second]

end Join

/-- A last group that is read is written for the bytes that it is read as. -/
theorem eq_utf8_of_readLastGroup
    {offset : Nat} {group bytes : List UInt8} (short : group.length ≤ 4)
    (read : readLastGroup offset group = .ok bytes) :
    group = Text.utf8 (encodeBytes bytes) := by
  obtain ⟨⟨values, padding⟩, symbols, read⟩ := bind_eq_ok_iff.1 read
  obtain ⟨small, rfl⟩ := symbols_of_readLastSymbols symbols
  simp only [List.length_append, List.length_map, List.length_replicate] at short
  dsimp only at read
  split at read
  · next p q r t =>
    simp only [List.forall_mem_cons] at small
    obtain ⟨hp, hq, hr, ht, -⟩ := small
    have unpadded : padding = 0 := by
      simp only [List.length_cons, List.length_nil] at short
      omega
    cases read
    have written := encodeBytes_joinValues hp hq hr ht []
    rw [List.append_nil] at written
    rw [written, unpadded]
    simp [Text.utf8, encodeBytes]
  · next p q r =>
    simp only [List.forall_mem_cons] at small
    obtain ⟨hp, hq, hr, -⟩ := small
    split at read
    · cases read
    · next padded =>
      split at read
      · cases read
      · next unused =>
        cases read
        rw [encodeBytes_joinValues_two hp hq hr (not_not.1 unused), not_not.1 padded]
        simp [Text.utf8]
  · next p q =>
    simp only [List.forall_mem_cons] at small
    obtain ⟨hp, hq, -⟩ := small
    split at read
    · cases read
    · next padded =>
      split at read
      · cases read
      · next unused =>
        cases read
        rw [encodeBytes_joinValues_one hp hq (not_not.1 unused), not_not.1 padded]
        simp [Text.utf8]
  · cases read
  · split at read
    · next empty =>
      cases read
      exact List.isEmpty_iff.1 empty
    · cases read

/-- Groups that are read are written for the bytes that they are read as. -/
theorem eq_utf8_of_readGroups
    {offset : Nat} {group bytes : List UInt8} (read : readGroups offset group = .ok bytes) :
    group = Text.utf8 (encodeBytes bytes) := by
  induction offset, group using readGroups.induct generalizing bytes with
  | case1 offset a b c d e rest hypothesis =>
    rw [readGroups] at read
    obtain ⟨p, first, read⟩ := bind_eq_ok_iff.1 read
    obtain ⟨q, second, read⟩ := bind_eq_ok_iff.1 read
    obtain ⟨r, third, read⟩ := bind_eq_ok_iff.1 read
    obtain ⟨t, fourth, read⟩ := bind_eq_ok_iff.1 read
    obtain ⟨others, later, same⟩ := bind_eq_ok_iff.1 read
    cases same
    obtain ⟨hp, rfl⟩ := readSymbol_eq_ok_iff.1 first
    obtain ⟨hq, rfl⟩ := readSymbol_eq_ok_iff.1 second
    obtain ⟨hr, rfl⟩ := readSymbol_eq_ok_iff.1 third
    obtain ⟨ht, rfl⟩ := readSymbol_eq_ok_iff.1 fourth
    rw [encodeBytes_joinValues hp hq hr ht, hypothesis later]
    simp [Text.utf8]
  | case2 offset group last =>
    have short : group.length ≤ 4 := by
      match group, last with
      | [], _ => simp
      | [_], _ => simp
      | [_, _], _ => simp
      | [_, _, _], _ => simp
      | [_, _, _, _], _ => simp
      | a :: b :: c :: d :: e :: rest, last => exact (last a b c d e rest rfl).elim
    rw [readGroups] at read
    · exact eq_utf8_of_readLastGroup short read
    · exact last

/-- A text is read as some bytes exactly if it is what is written for them. -/
theorem decode_eq_ok_iff {text : String} {bytes : List UInt8} :
    decode text = .ok bytes ↔ text = encode bytes := by
  constructor
  · intro read
    obtain ⟨_, read⟩ := check_bind_eq_ok_iff.1 read
    have same : text.toList = encodeBytes bytes := Text.utf8_injective (eq_utf8_of_readGroups read)
    rw [encode, ← same, String.ofList_toList]
  · rintro rfl
    exact decode_encode bytes

end Base64
end Schemata
