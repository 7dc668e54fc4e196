import ElfLens.Proofs.TrappingHash

set_option autoImplicit false

namespace ElfLens

namespace HashTable

/-- The look-up gives the first link on the chain that carries the name. -/
theorem lookup_eq_some_iff (table : HashTable) (name : Bytes) (carries : UInt32 → Bool)
    {index : UInt32} :
    table.lookup name carries = some index ↔
      ∃ steps, table.onChain? name steps = some index ∧ carries index = true ∧
        ∀ earlier < steps, ∀ passed, table.onChain? name earlier = some passed →
          carries passed = false := by
  have bounded : (table.candidates name).length ≤ table.chains.size :=
    table.length_candidates_le name
  rw [lookup, search, Search.found_run, List.find?_eq_some_iff_getElem]
  constructor
  · rintro ⟨carried, position, short, stands, before⟩
    refine ⟨position, ?_, carried, ?_⟩
    · rw [← table.getElem?_candidates name position (by omega), List.getElem?_eq_getElem short,
        stands]
    · intro earlier sooner passed reached
      have listed : earlier < (table.candidates name).length := by omega
      rw [← table.getElem?_candidates name earlier (by omega),
        List.getElem?_eq_getElem listed] at reached
      cases reached
      simpa using before earlier sooner
  · rintro ⟨steps, reached, carried, before⟩
    -- The link is come to within the bound, and not sooner than after these steps.
    obtain ⟨position, within, stands⟩ := table.exists_onChain?_lt_size name reached
    have late : steps ≤ position := by
      apply Nat.le_of_not_lt
      intro sooner
      have refused := before position sooner index stands
      rw [carried] at refused
      cases refused
    have listed := table.getElem?_candidates name steps (by omega)
    rw [reached] at listed
    obtain ⟨short, stands⟩ := List.getElem?_eq_some_iff.mp listed
    refine ⟨carried, steps, short, stands, ?_⟩
    intro earlier sooner
    have passed := table.getElem?_candidates name earlier (by omega)
    rw [List.getElem?_eq_getElem (by omega)] at passed
    simpa using before earlier sooner _ passed.symm

end HashTable

namespace RawHashTable

variable {raw : RawHashTable} {table : HashTable}

/-- The word is the index of a link; zero ends a chain. -/
def IsLink (raw : RawHashTable) (index : UInt32) : Prop := index ≠ 0 ∧ index < raw.chainCount

/-- The word that the chain of a name leads to in so many steps. -/
def follow (raw : RawHashTable) (name : Bytes) : Nat → UInt32
  | 0 => raw.word (2 + (SymbolHash.hash name).toNat % raw.bucketCount.toNat)
  | steps + 1 => raw.word (2 + raw.bucketCount.toNat + (raw.follow name steps).toNat)

/-- There is a chain for the name, and it does not end within so many steps. -/
def GoesOn (raw : RawHashTable) (name : Bytes) (steps : Nat) : Prop :=
  raw.bucketCount ≠ 0 ∧ ∀ passed ≤ steps, raw.IsLink (raw.follow name passed)

/-- The table has as many buckets and links as the counts say, and they are the words behind the
counts. -/
structure IsTable (raw : RawHashTable) (table : HashTable) : Prop where
  bucketCount : table.buckets.size = raw.bucketCount.toNat
  chainCount : table.chains.size = raw.chainCount.toNat
  bucket : ∀ index < raw.bucketCount.toNat, table.buckets[index]? = some (raw.word (2 + index))
  chain : ∀ index < raw.chainCount.toNat,
    table.chains[index]? = some (raw.word (2 + raw.bucketCount.toNat + index))

/-- A table that is read from bytes has the counts and the words of the bytes. -/
theorem exists_isTable {order : Endian} {bytes : Bytes}
    (read : HashTable.ofBytes? order bytes = .ok table) :
    ∃ buckets chains, (HashTable.counts order).decode bytes = .ok (buckets, chains) ∧
      IsTable ⟨bytes, order, buckets, chains⟩ table := by
  unfold HashTable.ofBytes? at read
  cases counted : (HashTable.counts order).decode bytes with
  | error fault =>
      rw [counted] at read
      cases read
  | ok counts =>
      obtain ⟨buckets, chains⟩ := counts
      refine ⟨buckets, chains, rfl, ?_⟩
      rw [counted] at read
      simp only [bind, Except.bind] at read
      by_cases short : bytes.size < HashTable.byteSize buckets chains
      · rw [if_pos short] at read
        cases read
      · rw [if_neg short] at read
        cases read
        obtain ⟨bucketCount, chainCount, bucket, chain⟩ :=
          words_of_counts (Nat.le_of_not_lt short) rfl
        exact ⟨bucketCount, chainCount, bucket, chain⟩

namespace IsTable

theorem isLink_iff (holds : raw.IsTable table) (index : UInt32) :
    table.isLink index = true ↔ raw.IsLink index := by
  rw [HashTable.isLink_iff, holds.chainCount, IsLink, UInt32.lt_iff_toNat_lt]

/-- A name has a bucket exactly if there are buckets. -/
theorem bucket?_eq (holds : raw.IsTable table) (name : Bytes) :
    table.bucket? name = if raw.bucketCount = 0 then none else some (raw.follow name 0) := by
  rw [HashTable.bucket?, holds.bucketCount]
  by_cases empty : raw.bucketCount = 0
  · rw [if_pos empty, Array.getElem?_eq_none]
    rw [holds.bucketCount, empty]
    exact Nat.zero_le _
  · have positive : 0 < raw.bucketCount.toNat := by
      apply Nat.pos_of_ne_zero
      intro zero
      exact empty (UInt32.toNat_inj.mp zero)
    rw [if_neg empty, holds.bucket _ (Nat.mod_lt _ positive)]
    rfl

/-- What follows a link is there to be read. -/
theorem chain_follow (holds : raw.IsTable table) {name : Bytes} {steps : Nat}
    (link : raw.IsLink (raw.follow name steps)) :
    table.chains[(raw.follow name steps).toNat]? = some (raw.follow name (steps + 1)) :=
  holds.chain _ (UInt32.lt_iff_toNat_lt.mp link.2)

/-- The links that the walk comes to are the words that the chain leads to before it ends. -/
theorem onChain?_eq_some_iff (holds : raw.IsTable table) (name : Bytes) (steps : Nat)
    (index : UInt32) :
    table.onChain? name steps = some index ↔
      raw.GoesOn name steps ∧ raw.follow name steps = index := by
  induction steps generalizing index with
  | zero =>
      rw [HashTable.onChain?, holds.bucket?_eq, GoesOn]
      by_cases empty : raw.bucketCount = 0
      · simp [empty]
      · rw [if_neg empty, Option.filter_eq_some_iff, holds.isLink_iff, Option.some_inj]
        constructor
        · rintro ⟨rfl, link⟩
          refine ⟨⟨empty, ?_⟩, rfl⟩
          intro passed first
          rwa [Nat.le_zero.mp first]
        · rintro ⟨⟨-, links⟩, rfl⟩
          exact ⟨rfl, links 0 (Nat.le_refl 0)⟩
  | succ steps ih =>
      rw [HashTable.onChain?_succ, Option.bind_eq_some_iff]
      constructor
      · rintro ⟨before, reached, next⟩
        obtain ⟨⟨filled, links⟩, rfl⟩ := (ih before).mp reached
        rw [HashTable.next?, holds.chain_follow (links steps (Nat.le_refl _)),
          Option.filter_eq_some_iff, holds.isLink_iff, Option.some_inj] at next
        obtain ⟨rfl, link⟩ := next
        refine ⟨⟨filled, ?_⟩, rfl⟩
        intro passed bound
        rcases Nat.le_succ_iff.mp bound with sooner | rfl
        · exact links passed sooner
        · exact link
      · rintro ⟨⟨filled, links⟩, rfl⟩
        refine ⟨raw.follow name steps, (ih _).mpr ⟨⟨filled, ?_⟩, rfl⟩, ?_⟩
        · intro passed bound
          exact links passed (by omega)
        · rw [HashTable.next?, holds.chain_follow (links steps (by omega)),
            Option.filter_eq_some_iff, holds.isLink_iff]
          exact ⟨rfl, links _ (Nat.le_refl _)⟩

end IsTable

end RawHashTable

/-- A search of a table that was read from bytes finds the first word on the chain of the name that
answers, without a limit to the steps, and nothing if there is none. It asks about these words in
their order and only while they are links, no more often than there are links, and stops at the one
that answers. No bucket and no link that it needs is missing. -/
theorem HashTable.search_along_chain {order : Endian} {bytes : Bytes} {table : HashTable}
    (read : ofBytes? order bytes = .ok table) (name : Bytes) (carries : UInt32 → Bool) :
    ∃ buckets chains, (counts order).decode bytes = .ok (buckets, chains) ∧
      let raw : RawHashTable := ⟨bytes, order, buckets, chains⟩
      let asked := (table.search name carries).asked
      (∀ index, table.lookup name carries = some index ↔
        ∃ steps, raw.GoesOn name steps ∧ raw.follow name steps = index ∧ carries index = true ∧
          ∀ earlier < steps, carries (raw.follow name earlier) = false) ∧
      (table.lookup name carries = none ↔
        ∀ steps, raw.GoesOn name steps → carries (raw.follow name steps) = false) ∧
      asked.length ≤ chains.toNat ∧
      (∀ position index, asked[position]? = some index →
        raw.GoesOn name position ∧ raw.follow name position = index ∧
          index ≠ 0 ∧ index < chains) ∧
      (∀ index ∈ asked.dropLast, carries index = false) ∧
      (buckets ≠ 0 → table.bucket? name = some (raw.follow name 0)) ∧
      ∀ steps, raw.GoesOn name steps →
        table.chains[(raw.follow name steps).toNat]? = some (raw.follow name (steps + 1)) := by
  obtain ⟨buckets, chains, counted, holds⟩ := RawHashTable.exists_isTable read
  refine ⟨buckets, chains, counted, ?_⟩
  intro raw asked
  have listed : asked <+: table.candidates name := Search.asked_isPrefix _ _
  have few : asked.length ≤ chains.toNat := by
    rw [← show table.chains.size = chains.toNat from holds.chainCount]
    exact Nat.le_trans listed.length_le (table.length_candidates_le name)
  refine ⟨?_, ?_, few, ?_, ?_, ?_, ?_⟩
  · intro index
    rw [table.lookup_eq_some_iff]
    constructor
    · rintro ⟨steps, reached, carried, before⟩
      obtain ⟨goes, leads⟩ := (holds.onChain?_eq_some_iff name steps index).mp reached
      refine ⟨steps, goes, leads, carried, ?_⟩
      intro earlier sooner
      apply before earlier sooner
      rw [holds.onChain?_eq_some_iff]
      exact ⟨⟨goes.1, fun passed bound => goes.2 passed (by omega)⟩, rfl⟩
    · rintro ⟨steps, goes, leads, carried, before⟩
      refine ⟨steps, (holds.onChain?_eq_some_iff name steps index).mpr ⟨goes, leads⟩, carried, ?_⟩
      intro earlier sooner passed reached
      obtain ⟨-, rfl⟩ := (holds.onChain?_eq_some_iff name earlier passed).mp reached
      exact before earlier sooner
  · rw [table.lookup_eq_none_iff]
    constructor
    · intro refused steps goes
      exact refused steps _ ((holds.onChain?_eq_some_iff name steps _).mpr ⟨goes, rfl⟩)
    · intro refused steps index reached
      obtain ⟨goes, rfl⟩ := (holds.onChain?_eq_some_iff name steps index).mp reached
      exact refused steps goes
  · intro position index stands
    obtain ⟨bound, rfl⟩ := List.getElem?_eq_some_iff.mp stands
    have short : position < table.chains.size :=
      Nat.lt_of_lt_of_le bound (Nat.le_trans listed.length_le (table.length_candidates_le name))
    have reached := List.prefix_iff_getElem?.mp listed position bound
    rw [table.getElem?_candidates name position short] at reached
    obtain ⟨goes, leads⟩ := (holds.onChain?_eq_some_iff name position _).mp reached
    exact ⟨goes, leads, leads ▸ goes.2 position (Nat.le_refl _)⟩
  · intro index earlier
    exact Search.not_answers_of_mem_dropLast carries _ earlier
  · intro filled
    rw [holds.bucket?_eq, if_neg filled]
  · intro steps goes
    exact holds.chain_follow (goes.2 steps (Nat.le_refl _))

/-- One bucket whose chain of three links uses every link there is: 1, then 3, then 2. -/
def HashTable.fullChain : Bytes := #[
  1, 0, 0, 0, 4, 0, 0, 0, 1, 0, 0, 0, 0, 0, 0, 0, 3, 0, 0, 0, 0, 0, 0, 0, 2, 0, 0, 0]

/-- One bucket whose chain goes from 1 to 2 and back to 1. -/
def HashTable.circle : Bytes := #[
  1, 0, 0, 0, 3, 0, 0, 0, 1, 0, 0, 0, 0, 0, 0, 0, 2, 0, 0, 0, 1, 0, 0, 0]

/-- The last link of a full chain is found. A search in a circle asks as often as there are links
and ends. -/
theorem HashTable.search_full_and_circle :
    let full : RawHashTable := ⟨fullChain, .little, 1, 4⟩
    let round : RawHashTable := ⟨circle, .little, 1, 3⟩
    (∃ table, ofBytes? .little fullChain = .ok table ∧
      table.search #[0x78] (· = 2) = ⟨[1, 3, 2], some 2⟩ ∧
      ∃ steps, full.GoesOn #[0x78] steps ∧ full.follow #[0x78] steps = 2 ∧
        ∀ earlier < steps, full.follow #[0x78] earlier ≠ 2) ∧
    ∃ table, ofBytes? .little circle = .ok table ∧
      table.search #[0x78] (fun _ => false) = ⟨[1, 2, 1], none⟩ ∧
      ∀ steps, round.GoesOn #[0x78] steps →
        table.chains[(round.follow #[0x78] steps).toNat]? =
          some (round.follow #[0x78] (steps + 1)) := by
  intro full round
  constructor
  · have read : ofBytes? .little fullChain = .ok ⟨#[1], #[0, 3, 0, 2]⟩ := by decide +kernel
    obtain ⟨buckets, chains, counted, found, -⟩ := search_along_chain read #[0x78] (· = 2)
    rw [show (counts .little).decode fullChain = .ok (1, 4) by decide +kernel] at counted
    cases counted
    refine ⟨_, read, by decide +kernel, ?_⟩
    obtain ⟨steps, goes, leads, -, before⟩ := (found 2).mp (by decide +kernel)
    exact ⟨steps, goes, leads, fun earlier sooner => of_decide_eq_false (before earlier sooner)⟩
  · have read : ofBytes? .little circle = .ok ⟨#[1], #[0, 2, 1]⟩ := by decide +kernel
    obtain ⟨buckets, chains, counted, -, -, -, -, -, -, next⟩ :=
      search_along_chain read #[0x78] fun _ => false
    rw [show (counts .little).decode circle = .ok (1, 3) by decide +kernel] at counted
    cases counted
    exact ⟨_, read, by decide +kernel, next⟩

end ElfLens
