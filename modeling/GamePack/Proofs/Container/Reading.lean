import GamePack.Container.Stored
import GamePack.Proofs.Block

/-!
Reading a written file. A record splits off the front of the bytes
whatever follows it, so the records of a file are read one after the
other, and parsing what a container writes gives for every block its
magic, its version as a word, and its payload.

Nothing else is read: bytes from which a record is read begin with that
record, so the bytes that parse as a file are those of the file.
-/
namespace GamePack

/-- Of a number only the part that fits a word is written. -/
theorem leBytes_mod (width n : Nat) :
    leBytes width (n % wordCount width) = leBytes width n := by
  induction width generalizing n with
  | zero => rfl
  | succ width ih =>
      have hdiv : n % wordCount (width + 1) / 256
          = n / 256 % wordCount width := by
        rw [wordCount, Nat.mod_mul_right_div_self]
      have hmod : n % wordCount (width + 1) % 256 = n % 256 := by
        rw [wordCount, Nat.mod_mul_right_mod]
      rw [leBytes, leBytes, hdiv, ih]
      congr 1
      apply UInt8.toNat_inj.1
      simpa using hmod

namespace StoredBlock

variable {s : StoredBlock}

/-- The version and the length of a stored block fit their words. -/
structure Fits (s : StoredBlock) : Prop where
  version : s.version < 0x100000000
  length : s.payload.length < 0x100000000

/-- A word that is written in front of something is read again. -/
theorem readWord_append {n : Nat} (h : n < 0x100000000) (rest : Bytes) :
    readWord (leBytes 4 n ++ rest) = .ok (n, rest) := by
  unfold readWord
  rw [readLE_leBytes_append (show n < wordCount 4 from h)]

/-- A magic is read from its bytes. -/
theorem ofBytes?_magic (magic : Magic) :
    Magic.ofBytes? magic.bytes = some magic :=
  dif_pos ⟨magic.length_eq, magic.graphic⟩

/-- There is no word in fewer than four bytes. -/
theorem readWord_of_lt {bytes : Bytes} (h : bytes.length < 4) :
    readWord bytes = .error .endOfBytes := by
  unfold readWord readLE
  rw [if_pos h]

/-- A word is the first four bytes, the lowest first. -/
theorem readWord_of_le {bytes : Bytes} (h : 4 ≤ bytes.length) :
    readWord bytes = .ok (ofLE (bytes.take 4), bytes.drop 4) := by
  unfold readWord readLE
  rw [if_neg (Nat.not_lt.2 h)]

/-- A word that is read lies at the front of the bytes. -/
theorem readWord_ok_iff {bytes rest : Bytes} {n : Nat} :
    readWord bytes = .ok (n, rest) ↔
      n < 0x100000000 ∧ bytes = leBytes 4 n ++ rest := by
  have hword : readLE 4 bytes = some (n, rest) ↔
      n < 0x100000000 ∧ bytes = leBytes 4 n ++ rest :=
    readLE_eq_some_iff
  rw [← hword]
  unfold readWord
  cases readLE 4 bytes <;> simp

/-- Only the bytes of a magic are read as it. -/
theorem ofBytes?_eq_some {bytes : Bytes} {magic : Magic} :
    Magic.ofBytes? bytes = some magic ↔ bytes = magic.bytes := by
  constructor
  · intro h
    unfold Magic.ofBytes? at h
    split at h
    next => rw [← Option.some.inj h]
    next => cases h
  · rintro rfl
    exact ofBytes?_magic magic

/-- A record is read off the front of the bytes. -/
theorem read_record_append (h : s.Fits) (number : Nat) (rest : Bytes) :
    read number (s.record ++ rest) = .ok (s, rest) := by
  have hlen := s.magic.length_eq
  have htake : (s.record ++ rest).take 4 = s.magic.bytes := by
    simp only [record, List.append_assoc]
    exact List.take_left' hlen
  have hdrop : (s.record ++ rest).drop 4 = leBytes 4 s.version ++
      (leBytes 4 s.payload.length ++ (s.payload ++ rest)) := by
    simp only [record, List.append_assoc]
    exact List.drop_left' hlen
  have hfour : ¬ (s.record ++ rest).length < 4 := by
    simp only [record, List.length_append, hlen]
    omega
  have hrest : ¬ (s.payload ++ rest).length < s.payload.length := by
    rw [List.length_append]
    omega
  unfold read
  rw [guard_eq_ok]
  refine ⟨hfour, ?_⟩
  simp only [htake, hdrop, ofBytes?_magic, readWord_append h.version,
    readWord_append h.length, bind_eq_ok, Except.ok.injEq,
    exists_eq_left', guard_eq_ok]
  exact ⟨hrest, by simp⟩

/-- A record that is read lies at the front of the bytes. -/
theorem read_ok_iff {number : Nat} {bytes rest : Bytes} :
    read number bytes = .ok (s, rest) ↔
      s.Fits ∧ bytes = s.record ++ rest := by
  constructor
  · intro h
    unfold read at h
    obtain ⟨-, h⟩ := guard_eq_ok.1 h
    cases hmagic : Magic.ofBytes? (bytes.take 4) with
    | none =>
        rw [hmagic] at h
        cases h
    | some magic =>
        rw [hmagic] at h
        obtain ⟨⟨version, later⟩, hversion, h⟩ := bind_eq_ok.1 h
        obtain ⟨⟨length, later'⟩, hlength, h⟩ := bind_eq_ok.1 h
        obtain ⟨hlong, h⟩ := guard_eq_ok.1 h
        cases pure_ok_iff.1 h
        obtain ⟨hversionlt, hdrop⟩ := readWord_ok_iff.1 hversion
        obtain ⟨hlengthlt, rfl⟩ := readWord_ok_iff.1 hlength
        have hpayload : (later'.take length).length = length :=
          List.length_take_of_le (Nat.not_lt.1 hlong)
        refine ⟨⟨hversionlt, by rw [hpayload]; exact hlengthlt⟩, ?_⟩
        -- magic, words and payload are the four cuts of the bytes
        rw [← List.take_append_drop 4 bytes, hdrop,
          ofBytes?_eq_some.1 hmagic]
        simp only [record, hpayload, List.append_assoc,
          List.take_append_drop]
  · rintro ⟨hfits, rfl⟩
    exact read_record_append hfits number rest

/-- A record takes twelve bytes more than its payload. -/
theorem length_record (s : StoredBlock) :
    s.record.length = 12 + s.payload.length := by
  simp only [record, List.length_append, length_leBytes,
    s.magic.length_eq]

/-- Records that lie one after the other are read one after the
other. -/
theorem readAll_records {blocks : List StoredBlock}
    (h : ∀ s ∈ blocks, s.Fits) {fuel : Nat}
    (hfuel : blocks.length ≤ fuel) (number : Nat) :
    readAll fuel number (blocks.map record).flatten = .ok blocks := by
  induction blocks generalizing fuel number with
  | nil =>
      cases fuel with
      | zero => rfl
      | succ fuel => rfl
  | cons s blocks ih =>
      rw [List.length_cons] at hfuel
      obtain ⟨fuel, rfl⟩ := Nat.exists_eq_add_one.2
        (Nat.lt_of_lt_of_le (Nat.succ_pos _) hfuel)
      have hlater := ih (fun s' hs' => h s' (List.mem_cons_of_mem _ hs'))
        (Nat.le_of_succ_le_succ hfuel) (number + 1)
      have hread := read_record_append (h s List.mem_cons_self) number
        (blocks.map record).flatten
      have hne : s.record ++ (blocks.map record).flatten ≠ [] := by
        rw [← List.length_pos_iff, List.length_append, length_record]
        omega
      -- a record is not empty, so the reader does not stop in front
      rw [List.map_cons, List.flatten_cons, readAll]
      · simp only [hread, bind_eq_ok, Except.ok.injEq, exists_eq_left',
          hlater, pure_ok_iff]
      · exact hne

/-- Records that are read lie one after the other and take up all the
bytes. -/
theorem of_readAll {blocks : List StoredBlock} {fuel number : Nat}
    {bytes : Bytes} (h : readAll fuel number bytes = .ok blocks) :
    (∀ s ∈ blocks, s.Fits) ∧ bytes = (blocks.map record).flatten := by
  induction fuel generalizing number bytes blocks with
  | zero =>
      cases bytes with
      | nil =>
          cases h
          exact ⟨by simp, rfl⟩
      | cons b bytes => cases h
  | succ fuel ih =>
      cases bytes with
      | nil =>
          cases h
          exact ⟨by simp, rfl⟩
      | cons b bytes =>
          obtain ⟨⟨s, rest⟩, hread, h⟩ := bind_eq_ok.1 h
          obtain ⟨later, hlater, h⟩ := bind_eq_ok.1 h
          obtain rfl := pure_ok_iff.1 h
          obtain ⟨hfits, hbytes⟩ := read_ok_iff.1 hread
          obtain ⟨hlaterfits, rfl⟩ := ih hlater
          rw [hbytes, List.map_cons, List.flatten_cons]
          exact ⟨List.forall_mem_cons.2 ⟨hfits, hlaterfits⟩, rfl⟩

end StoredBlock

namespace StoredFile

/-- A file whose blocks fit their words is read back. -/
theorem parse_toBytes {f : StoredFile} (h : ∀ s ∈ f.blocks, s.Fits) :
    parse f.toBytes = .ok f := by
  have hmagic : fileMagic.length = 4 := rfl
  have htake : f.toBytes.take 4 = fileMagic := by
    simp only [toBytes, fileHeader, List.append_assoc]
    exact List.take_left' hmagic
  have hdrop : f.toBytes.drop 4 = leBytes 4 fileVersion ++
      (f.blocks.map StoredBlock.record).flatten := by
    simp only [toBytes, fileHeader, List.append_assoc]
    exact List.drop_left' hmagic
  have hfour : ¬ f.toBytes.length < 4 := by
    simp only [toBytes, fileHeader, List.length_append, hmagic]
    omega
  have hfuel : f.blocks.length ≤
      ((f.blocks.map StoredBlock.record).flatten).length := by
    -- every record takes a byte at least, so the bytes bound the
    -- number of records and the reader does not run out
    have hsum := List.length_le_sum_of_one_le
      (f.blocks.map fun s => s.record.length) fun n hn => by
        obtain ⟨s, -, rfl⟩ := List.mem_map.1 hn
        rw [StoredBlock.length_record]
        omega
    rw [List.length_map] at hsum
    rw [List.length_flatten, List.map_map]
    exact hsum
  unfold parse
  simp only [guard_eq_ok, htake, hdrop, bind_eq_ok,
    StoredBlock.readWord_append (show fileVersion < 0x100000000 by decide),
    Except.ok.injEq, exists_eq_left']
  refine ⟨hfour, by simp, by simp, f.blocks, ?_, rfl⟩
  exact StoredBlock.readAll_records h hfuel 1

/-- The bytes that parse as a file are those of the file. -/
theorem parse_ok_iff {f : StoredFile} {bytes : Bytes} :
    parse bytes = .ok f ↔ bytes = f.toBytes ∧ ∀ s ∈ f.blocks, s.Fits := by
  constructor
  · intro h
    unfold parse at h
    obtain ⟨-, h⟩ := guard_eq_ok.1 h
    obtain ⟨hmagic, h⟩ := guard_eq_ok.1 h
    obtain ⟨⟨version, rest⟩, hversion, h⟩ := bind_eq_ok.1 h
    obtain ⟨hnumber, h⟩ := guard_eq_ok.1 h
    obtain ⟨blocks, hblocks, h⟩ := bind_eq_ok.1 h
    obtain rfl := pure_ok_iff.1 h
    obtain ⟨-, hdrop⟩ := StoredBlock.readWord_ok_iff.1 hversion
    obtain ⟨hfits, hrest⟩ := StoredBlock.of_readAll hblocks
    refine ⟨?_, hfits⟩
    rw [← List.take_append_drop 4 bytes, hdrop, hrest,
      Decidable.not_not.1 hmagic, Decidable.not_not.1 hnumber]
    simp only [toBytes, fileHeader, List.append_assoc]
  · rintro ⟨rfl, hfits⟩
    exact parse_toBytes hfits

end StoredFile

-- ======================================================= containers

/-- What is read of a block: its magic, its version as a word and its
payload. -/
structure Block.Stores (b : Block) (s : StoredBlock) : Prop where
  magic : s.magic = b.magic
  version : s.version = b.version % 0x100000000
  payload : b.payload = .ok s.payload

/-- The record of a block is that of what is read of it. -/
theorem Block.exists_of_record {b : Block} {bytes : Bytes}
    (h : b.record = .ok bytes) :
    ∃ s, b.Stores s ∧ s.Fits ∧ bytes = s.record := by
  obtain ⟨payload, hpayload, hlen, rfl⟩ := Block.record_ok_iff.1 h
  refine ⟨⟨b.magic, b.version % 0x100000000, payload⟩,
    ⟨rfl, rfl, hpayload⟩, ⟨Nat.mod_lt _ (by decide), hlen⟩, ?_⟩
  show b.magic.bytes ++ leBytes 4 b.version ++ _ ++ payload =
    b.magic.bytes ++ leBytes 4 (b.version % wordCount 4) ++ _ ++ payload
  rw [leBytes_mod]

/-- What a container writes is parsed, and every block is found at its
place. -/
theorem Container.exists_parse_of_toBytes {c : Container} {bytes : Bytes}
    (h : c.toBytes = .ok bytes) :
    ∃ file, StoredFile.parse bytes = .ok file ∧
      List.Forall₂ Block.Stores c.blocks file.blocks := by
  simp only [Container.toBytes, bind_eq_ok, mapM_eq_ok, pure_ok_iff] at h
  obtain ⟨records, hrecords, rfl⟩ := h
  obtain ⟨blocks, hstores, hfits, hbytes⟩ :
      ∃ blocks : List StoredBlock,
        List.Forall₂ Block.Stores c.blocks blocks ∧
          (∀ s ∈ blocks, s.Fits) ∧
          records = blocks.map StoredBlock.record := by
    -- each record is that of what is read of its block
    generalize c.blocks = bs at hrecords
    induction hrecords with
    | nil => exact ⟨[], .nil, by simp, rfl⟩
    | cons hrecord _ ih =>
        obtain ⟨blocks, hstores, hfits, rfl⟩ := ih
        obtain ⟨s, hs, hfit, rfl⟩ := Block.exists_of_record hrecord
        exact ⟨s :: blocks, .cons hs hstores,
          List.forall_mem_cons.2 ⟨hfit, hfits⟩, rfl⟩
  refine ⟨⟨blocks⟩, ?_, hstores⟩
  rw [hbytes]
  exact StoredFile.parse_toBytes (f := ⟨blocks⟩) hfits

/-- A block whose version is a word is read with its version. -/
structure Block.IsStoredAs (b : Block) (s : StoredBlock) : Prop where
  magic : s.magic = b.magic
  version : s.version = b.version
  payload : b.payload = .ok s.payload

/-- What a container writes is parsed into its blocks, when their
versions are words. -/
theorem Container.exists_parse_of_words {c : Container} {bytes : Bytes}
    (hwords : ∀ b ∈ c.blocks, b.version < 0x100000000)
    (h : c.toBytes = .ok bytes) :
    ∃ file, StoredFile.parse bytes = .ok file ∧
      List.Forall₂ Block.IsStoredAs c.blocks file.blocks := by
  obtain ⟨file, hfile, hstores⟩ := c.exists_parse_of_toBytes h
  refine ⟨file, hfile, ?_⟩
  have hall := (List.forall₂_and_left _ _).2 ⟨hwords, hstores⟩
  refine hall.imp fun b s hs => ?_
  obtain ⟨hword, hmagic, hversion, hpayload⟩ := hs
  exact ⟨hmagic, by rw [hversion, Nat.mod_eq_of_lt hword], hpayload⟩

end GamePack
