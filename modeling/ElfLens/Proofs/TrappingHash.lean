import ElfLens.Proofs.ChainWalk
import ElfLens.Proofs.TrappingWords

set_option autoImplicit false

namespace ElfLens

/-- A number is four bytes at four times its index. -/
theorem HashTable.getElem?_words (order : Endian) (bytes : List UInt8) (index : Nat) :
    (words order bytes)[index]? =
      if 4 * index + 4 ≤ bytes.length then
        some (order.value ((bytes.drop (4 * index)).take 4)).toUInt32
      else none := by
  induction bytes using words.induct generalizing index with
  | case1 a b c d rest ih =>
      rw [words]
      cases index with
      | zero => simp
      | succ index =>
          have same : 4 * (index + 1) + 4 ≤ (a :: b :: c :: d :: rest).length ↔
              4 * index + 4 ≤ rest.length := by
            simp only [List.length_cons]
            omega
          have behind : (a :: b :: c :: d :: rest).drop (4 * (index + 1)) =
              rest.drop (4 * index) := rfl
          rw [List.getElem?_cons_succ, ih, behind]
          simp only [same]
  | case2 bytes short =>
      have few : bytes.length < 4 := by
        match bytes, short with
        | [], _ => decide
        | [_], _ => simp
        | [_, _], _ => simp
        | [_, _, _], _ => simp
        | a :: b :: c :: d :: rest, short => exact (short a b c d rest rfl).elim
      rw [words, if_neg (by omega)]
      · rfl
      · exact short

/-- A hash table that is left in its bytes, with the two counts taken from their front. -/
structure RawHashTable where
  bytes : Bytes
  order : Endian
  bucketCount : UInt32
  chainCount : UInt32

namespace RawHashTable

/-- The word at an index, the counts being the first two. -/
def word (raw : RawHashTable) (index : Nat) : UInt32 :=
  (raw.order.value (raw.bytes.extract (4 * index) (4 * index + 4)).toList).toUInt32

/-- The bytes hold all of the table: its buckets stand behind the counts, its links behind these. -/
structure Shows (raw : RawHashTable) (table : HashTable) : Prop where
  held : raw.bytes.size < UInt64.size
  whole : HashTable.byteSize raw.bucketCount raw.chainCount ≤ raw.bytes.size
  bucketCount : table.buckets.size = raw.bucketCount.toNat
  chainCount : table.chains.size = raw.chainCount.toNat
  bucket : ∀ index < raw.bucketCount.toNat, table.buckets[index]? = some (raw.word (2 + index))
  chain : ∀ index < raw.chainCount.toNat,
    table.chains[index]? = some (raw.word (2 + raw.bucketCount.toNat + index))

end RawHashTable

section Counts

variable {order : Endian} {bytes : Bytes} {buckets chains : UInt32}

/-- Behind the counts there are as many words as they say, each of them in its place. -/
theorem RawHashTable.getElem?_body (whole : HashTable.byteSize buckets chains ≤ bytes.size)
    (index : Nat) :
    (HashTable.words order (bytes.extract HashTable.headerSize
      (HashTable.byteSize buckets chains)).toList)[index]? =
      if index < buckets.toNat + chains.toNat then
        some (word ⟨bytes, order, buckets, chains⟩ (2 + index))
      else none := by
  have size : HashTable.byteSize buckets chains = (2 + buckets.toNat + chains.toNat) * 4 := rfl
  have length : (bytes.extract HashTable.headerSize
      (HashTable.byteSize buckets chains)).toList.length = 4 * (buckets.toNat + chains.toNat) := by
    rw [Array.length_toList, Array.size_extract, Nat.min_eq_left whole, size, HashTable.headerSize]
    omega
  rw [HashTable.getElem?_words, length]
  by_cases inside : index < buckets.toNat + chains.toNat
  · have part : (((bytes.extract HashTable.headerSize
        (HashTable.byteSize buckets chains)).toList.drop (4 * index)).take 4) =
        (bytes.extract (4 * (2 + index)) (4 * (2 + index) + 4)).toList := by
      rw [Array.toList_extract, Array.toList_extract, List.extract_eq_take_drop,
        List.extract_eq_take_drop, List.drop_take, List.take_take, List.drop_drop,
        HashTable.headerSize]
      congr 1
      · omega
      · congr 1
        omega
    rw [if_pos (by omega), if_pos inside, part]
    rfl
  · rw [if_neg (by omega), if_neg inside]

/-- What is made of the words behind the counts has as many buckets and links as they say, each of
them the word in its place. -/
theorem RawHashTable.words_of_counts (whole : HashTable.byteSize buckets chains ≤ bytes.size)
    {all : Array UInt32}
    (words : all.toList = HashTable.words order (bytes.extract HashTable.headerSize
      (HashTable.byteSize buckets chains)).toList) :
    let raw : RawHashTable := ⟨bytes, order, buckets, chains⟩
    (all.take buckets.toNat).size = buckets.toNat ∧
      (all.drop buckets.toNat).size = chains.toNat ∧
      (∀ index < buckets.toNat, (all.take buckets.toNat)[index]? = some (raw.word (2 + index))) ∧
      ∀ index < chains.toNat,
        (all.drop buckets.toNat)[index]? = some (raw.word (2 + buckets.toNat + index)) := by
  intro raw
  have stands : ∀ index, all[index]? =
      if index < buckets.toNat + chains.toNat then some (raw.word (2 + index)) else none := by
    intro index
    rw [← Array.getElem?_toList, words, getElem?_body whole]
  have size : all.size = buckets.toNat + chains.toNat := by
    apply Nat.le_antisymm
    · have last := stands (buckets.toNat + chains.toNat)
      rw [if_neg (Nat.lt_irrefl _)] at last
      exact Array.getElem?_eq_none_iff.mp last
    · apply Nat.le_of_not_lt
      intro few
      have last := stands all.size
      rw [if_pos few, Array.getElem?_eq_none (Nat.le_refl _)] at last
      cases last
  refine ⟨?_, ?_, ?_, ?_⟩
  · rw [Array.size_extract, size]
    omega
  · rw [Array.size_extract, size]
    omega
  · intro index below
    rw [Array.getElem?_extract, if_pos (by omega), Nat.zero_add, stands, if_pos (by omega)]
  · intro index below
    rw [Array.getElem?_extract, if_pos (by omega), stands, if_pos (by omega), Nat.add_assoc]

/-- What is made of the words behind the counts stands in the bytes. -/
theorem RawHashTable.shows_of_counts (held : bytes.size < UInt64.size)
    (whole : HashTable.byteSize buckets chains ≤ bytes.size) {all : Array UInt32}
    (words : all.toList = HashTable.words order (bytes.extract HashTable.headerSize
      (HashTable.byteSize buckets chains)).toList) :
    Shows ⟨bytes, order, buckets, chains⟩ ⟨all.take buckets.toNat, all.drop buckets.toNat⟩ := by
  obtain ⟨bucketCount, chainCount, bucket, chain⟩ := words_of_counts whole words
  exact ⟨held, whole, bucketCount, chainCount, bucket, chain⟩

end Counts

namespace Trapping

def hashTableSize (buckets chains : UInt32) : Trapping UInt64 := do
  mul (← add (← add 2 buckets.toUInt64) chains.toUInt64) 4

def hashTable (order : Endian) (bytes : Bytes) : Trapping (Except Fault RawHashTable) :=
  match (HashTable.counts order).decode bytes with
  | .error fault => return .error fault
  | .ok (buckets, chains) => do
    let needed ← hashTableSize buckets chains
    if bytes.size < needed.toNat then return .error (.truncatedTable 0 needed.toNat)
    return .ok ⟨bytes, order, buckets, chains⟩

def hashWord (raw : RawHashTable) (index : UInt64) : Trapping (Option UInt32) :=
  match Word.times? index 4 with
  | none => return none
  | some offset => do
    let read ← number raw.order 4 raw.bytes offset
    return read.toOption.map Nat.toUInt32

def bucket (raw : RawHashTable) (index : UInt32) : Trapping (Option UInt32) := do
  if raw.bucketCount ≤ index then return none
  hashWord raw (← add 2 index.toUInt64)

def chain (raw : RawHashTable) (index : UInt32) : Trapping (Option UInt32) := do
  if raw.chainCount ≤ index then return none
  hashWord raw (← add (← add 2 raw.bucketCount.toUInt64) index.toUInt64)

/-- Follows a chain for so many links, to the first one that answers. -/
def walk (raw : RawHashTable) (carries : UInt32 → Bool) : Nat → UInt32 → Trapping (Option UInt32)
  | 0, _ => return none
  | steps + 1, index => do
    if index = 0 ∨ raw.chainCount ≤ index then return none
    if carries index then return some index
    match ← chain raw index with
    | none => return none
    | some next => walk raw carries steps next

/-- The first symbol on the chain of a name that answers. -/
def lookup (raw : RawHashTable) (name : Bytes) (carries : UInt32 → Bool) :
    Trapping (Option UInt32) := do
  if raw.bucketCount = 0 then return none
  match ← bucket raw (← rem (SymbolHash.hash name) raw.bucketCount) with
  | none => return none
  | some index => walk raw carries raw.chainCount.toNat index

theorem byteSize_lt (buckets chains : UInt32) : HashTable.byteSize buckets chains < UInt64.size := by
  have buckets := buckets.toNat_lt
  have chains := chains.toNat_lt
  have size := Word.size_eq
  rw [HashTable.byteSize]
  omega

theorem add_two_eq (count : UInt32) :
    ∃ sum, add 2 count.toUInt64 = .ok sum ∧ sum.toNat = 2 + count.toNat := by
  have bound := count.toNat_lt
  have size := Word.size_eq
  have word : (2 + count.toNat).toUInt64.toNat = 2 + count.toNat :=
    UInt64.toNat_ofNat_of_lt' (by omega)
  refine ⟨_, add_eq ?_, word⟩
  rw [word, UInt32.toNat_toUInt64]
  rfl

theorem add_counts_eq (buckets index : UInt32) :
    ∃ sum, (add 2 buckets.toUInt64 >>= fun first => add first index.toUInt64) = .ok sum ∧
      sum.toNat = 2 + buckets.toNat + index.toNat := by
  obtain ⟨first, added, exact⟩ := add_two_eq buckets
  have bound := buckets.toNat_lt
  have bound' := index.toNat_lt
  have size := Word.size_eq
  have word : (2 + buckets.toNat + index.toNat).toUInt64.toNat =
      2 + buckets.toNat + index.toNat := UInt64.toNat_ofNat_of_lt' (by omega)
  refine ⟨_, ?_, word⟩
  rw [added]
  apply add_eq
  rw [word, exact, UInt32.toNat_toUInt64]

theorem hashTableSize_eq (buckets chains : UInt32) :
    ∃ size, hashTableSize buckets chains = .ok size ∧
      size.toNat = HashTable.byteSize buckets chains := by
  obtain ⟨sum, added, exact⟩ := add_counts_eq buckets chains
  have word : (HashTable.byteSize buckets chains).toUInt64.toNat =
      HashTable.byteSize buckets chains := UInt64.toNat_ofNat_of_lt' (byteSize_lt buckets chains)
  refine ⟨_, ?_, word⟩
  have product : mul sum 4 = .ok (HashTable.byteSize buckets chains).toUInt64 := by
    apply mul_eq
    rw [word, exact]
    rfl
  rw [hashTableSize, ← bind_assoc, added]
  exact product

/-- The table that the bytes hold is read from them, or they are refused alike. -/
theorem hashTable_eq {order : Endian} {bytes : Bytes} (held : bytes.size < UInt64.size) :
    (∀ fault, HashTable.ofBytes? order bytes = .error fault →
      hashTable order bytes = .ok (.error fault)) ∧
    ∀ table, HashTable.ofBytes? order bytes = .ok table →
      ∃ raw : RawHashTable, hashTable order bytes = .ok (.ok raw) ∧ raw.Shows table := by
  unfold hashTable HashTable.ofBytes?
  cases counted : (HashTable.counts order).decode bytes with
  | error fault =>
      refine ⟨?_, fun table read => (nomatch read)⟩
      intro other read
      cases read
      rfl
  | ok counts =>
      obtain ⟨buckets, chains⟩ := counts
      obtain ⟨needed, sized, exact⟩ := hashTableSize_eq buckets chains
      simp only [bind, Except.bind, sized, exact]
      by_cases short : bytes.size < HashTable.byteSize buckets chains
      · simp only [if_pos short]
        refine ⟨?_, fun table read => (nomatch read)⟩
        intro other read
        cases read
        rfl
      · simp only [if_neg short]
        refine ⟨fun fault read => (nomatch read), ?_⟩
        intro table read
        cases read
        refine ⟨_, rfl, ?_⟩
        exact RawHashTable.shows_of_counts held (Nat.le_of_not_lt short) rfl

section Shown

variable {raw : RawHashTable} {table : HashTable}

/-- A word inside the table is read, at a place that is a word itself. -/
theorem hashWord_eq (shows : raw.Shows table) {index : UInt64}
    (inside : index.toNat < 2 + raw.bucketCount.toNat + raw.chainCount.toNat) :
    hashWord raw index = .ok (some (raw.word index.toNat)) := by
  have whole := shows.whole
  have held := shows.held
  rw [HashTable.byteSize] at whole
  have word : (index.toNat * 4).toUInt64.toNat = index.toNat * 4 :=
    UInt64.toNat_ofNat_of_lt' (by omega)
  have place : Word.times? index 4 = some (index.toNat * 4).toUInt64 :=
    Word.times?_eq_some_iff.mpr word
  have sliced : raw.bytes.slice? (index.toNat * 4) (4 : UInt64).toNat =
      some (raw.bytes.extract (4 * index.toNat) (4 * index.toNat + 4)) := by
    apply Bytes.slice?_eq_some_iff.mpr
    change index.toNat * 4 + 4 ≤ raw.bytes.size ∧ _
    rw [Nat.mul_comm]
    exact ⟨by omega, rfl⟩
  unfold hashWord
  rw [place]
  change (number raw.order 4 raw.bytes _ >>= _) = _
  rw [number_eq held raw.order (by decide), word,
    FieldReader.decodeAt_unsigned raw.order (by decide), sliced]
  rfl

theorem bucket_eq (shows : raw.Shows table) (index : UInt32) :
    bucket raw index = .ok table.buckets[index.toNat]? := by
  unfold bucket
  by_cases outside : raw.bucketCount ≤ index
  · have past : table.buckets.size ≤ index.toNat := by
      rw [shows.bucketCount]
      exact UInt32.le_iff_toNat_le.mp outside
    rw [if_pos outside, Array.getElem?_eq_none past]
    rfl
  · have inside : index.toNat < raw.bucketCount.toNat := by
      rwa [UInt32.le_iff_toNat_le, Nat.not_le] at outside
    obtain ⟨place, added, exact⟩ := add_two_eq index
    rw [if_neg outside, added, shows.bucket _ inside]
    change hashWord raw place = _
    rw [hashWord_eq shows (by omega), exact]

theorem chain_eq (shows : raw.Shows table) (index : UInt32) :
    chain raw index = .ok table.chains[index.toNat]? := by
  unfold chain
  by_cases outside : raw.chainCount ≤ index
  · have past : table.chains.size ≤ index.toNat := by
      rw [shows.chainCount]
      exact UInt32.le_iff_toNat_le.mp outside
    rw [if_pos outside, Array.getElem?_eq_none past]
    rfl
  · have inside : index.toNat < raw.chainCount.toNat := by
      rwa [UInt32.le_iff_toNat_le, Nat.not_le] at outside
    obtain ⟨place, added, exact⟩ := add_counts_eq raw.bucketCount index
    rw [if_neg outside, shows.chain _ inside]
    change ((add 2 raw.bucketCount.toUInt64) >>= fun first => add first index.toUInt64 >>= _) = _
    rw [← bind_assoc, added]
    change hashWord raw place = _
    rw [hashWord_eq shows (by omega), exact]

/-- However many links are followed, they are those of the table, up to the first that answers. -/
theorem walk_eq (shows : raw.Shows table) (carries : UInt32 → Bool) (steps : Nat) (index : UInt32) :
    walk raw carries steps index = .ok ((table.chainFrom steps index).find? carries) := by
  induction steps generalizing index with
  | zero => rfl
  | succ steps ih =>
      unfold walk
      by_cases link : table.isLink index
      · obtain ⟨next, stored, walked⟩ := table.exists_chainFrom_of_link steps index link
        obtain ⟨nonzero, inside⟩ := (table.isLink_iff index).mp link
        have goes : ¬ (index = 0 ∨ raw.chainCount ≤ index) := by
          rw [UInt32.le_iff_toNat_le, ← shows.chainCount]
          exact fun ended => ended.elim nonzero (Nat.not_le_of_lt inside)
        rw [if_neg goes, walked, List.find?_cons]
        cases carries index with
        | true => rfl
        | false =>
            rw [chain_eq shows, stored]
            exact ih next
      · have ended : index = 0 ∨ raw.chainCount ≤ index := by
          rw [UInt32.le_iff_toNat_le, ← shows.chainCount]
          apply Classical.byContradiction
          intro goes
          obtain ⟨nonzero, inside⟩ := not_or.mp goes
          exact link ((table.isLink_iff index).mpr ⟨nonzero, Nat.lt_of_not_le inside⟩)
        rw [if_pos ended, table.chainFrom_succ_of_not_link steps index link]
        rfl

/-- A look-up finds what a search of the table finds; a table without buckets is not divided by. -/
theorem lookup_eq (shows : raw.Shows table) (name : Bytes) (carries : UInt32 → Bool) :
    lookup raw name carries = .ok (table.lookup name carries) := by
  unfold lookup HashTable.lookup HashTable.search HashTable.candidates HashTable.bucket?
  rw [Search.found_run, shows.bucketCount]
  by_cases empty : raw.bucketCount = 0
  · have none : table.buckets.size ≤ (SymbolHash.hash name).toNat % raw.bucketCount.toNat := by
      rw [shows.bucketCount, empty]
      exact Nat.zero_le _
    rw [if_pos empty, Array.getElem?_eq_none none]
    rfl
  · have slot : ((SymbolHash.hash name) % raw.bucketCount).toNat =
        (SymbolHash.hash name).toNat % raw.bucketCount.toNat := UInt32.toNat_mod ..
    rw [if_neg empty, rem, if_neg empty]
    change (bucket raw (SymbolHash.hash name % raw.bucketCount) >>= _) = _
    rw [bucket_eq shows, slot, shows.chainCount]
    cases table.buckets[(SymbolHash.hash name).toNat % raw.bucketCount.toNat]? with
    | none => rfl
    | some index => exact walk_eq shows carries _ index

end Shown

end Trapping

end ElfLens
