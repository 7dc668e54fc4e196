import ElfLens.Proofs.WordReading

set_option autoImplicit false

namespace ElfLens.Region

open Text

/-- The record that describes a region, with a gap behind each field that is not the last, and with
zeros in front of the two ends and of the offset. -/
def paddedRecord (zeros : Nat → Nat) (gap : Nat → List Char) (region : Region) : List Char :=
  paddedDigits 16 (zeros 0) region.start.toNat ++
    '-' :: paddedDigits 16 (zeros 1) region.stop.toNat ++ gap 0 ++
    region.perms.toList ++ gap 1 ++
    paddedDigits 16 (zeros 2) region.offset.toNat ++ gap 2 ++
    region.device.toList ++ gap 3 ++
    Nat.toDigits 10 region.inode.toNat ++ gap 4 ++
    region.name.toList

theorem paddedRecord_zero (gap : Nat → List Char) (region : Region) :
    paddedRecord (fun _ => 0) gap region = recordWith gap region := rfl

/-- Blanks stand in every gap, and no word or name is joined to the field in front of it. -/
def Separates (gap : Nat → List Char) (region : Region) : Prop :=
  ∀ i < 5, IsGap (gap i) ∧ (gap i ≠ [] ∨ i = 4 ∧ region.name = "")

instance (gap : Nat → List Char) (region : Region) : Decidable (region.Separates gap) :=
  inferInstanceAs (Decidable (∀ i < 5, IsGap (gap i) ∧ (gap i ≠ [] ∨ i = 4 ∧ region.name = "")))

theorem parseRange?_paddedDigits (zeros more : Nat) (start stop : UInt64) :
    parseRange? (paddedDigits 16 zeros start.toNat ++ '-' :: paddedDigits 16 more stop.toNat) =
      some (start, stop) := by
  have kept : ∀ c ∈ paddedDigits 16 zeros start.toNat, decide (c ≠ '-') = true := by
    intro c listed
    simp [(solid_of_mem_paddedDigits 16 (by decide) (by decide) zeros listed).2.1]
  have first := word?_paddedDigits 16 (by decide) (by decide) zeros start
  have second := word?_paddedDigits 16 (by decide) (by decide) more stop
  rw [parseRange?, List.span_eq_takeWhile_dropWhile, List.takeWhile_append_of_pos kept,
    List.dropWhile_append_of_pos kept]
  simp [first, second]

theorem isWord_range (zeros more start stop : Nat) :
    IsWord (paddedDigits 16 zeros start ++ '-' :: paddedDigits 16 more stop) := by
  refine ⟨by simp, ?_⟩
  intro c listed
  rcases List.mem_append.mp listed with front | behind
  · exact (isWord_paddedDigits 16 (by decide) (by decide) zeros start).2 c front
  · rcases List.mem_cons.mp behind with rfl | back
    · decide
    · exact (isWord_paddedDigits 16 (by decide) (by decide) more stop).2 c back

/-- A region is read back from its record, however wide the gaps and the numbers are. -/
theorem parse?_paddedRecord {region : Region} {zeros : Nat → Nat} {gap : Nat → List Char}
    (recordable : region.IsRecordable) (separates : region.Separates gap) :
    parse? (paddedRecord zeros gap region) = some region := by
  obtain ⟨perms, device, name⟩ := recordable
  have blank : ∀ i < 5, IsGap (gap i) := fun i few => (separates i few).1
  have apart : ∀ i < 4, ∀ rest, EndsWord (gap i ++ rest) := by
    intro i few rest
    obtain ⟨hollow, filled | ⟨last, -⟩⟩ := separates i (by omega)
    · exact endsWord_append hollow (.inl filled)
    · omega
  have behind : EndsWord (gap 4 ++ region.name.toList) := by
    obtain ⟨hollow, filled | ⟨-, unnamed⟩⟩ := separates 4 (by decide)
    · exact endsWord_append hollow (.inl filled)
    · exact endsWord_append hollow (.inr (by rw [unnamed, String.toList_empty]))
  have word : ∀ i < 5, ∀ {text rest : List Char}, IsWord text → EndsWord rest →
      nextWord? (gap i ++ (text ++ rest)) = some (text, rest) := by
    intro i few text rest whole ends
    rw [nextWord?_append_of_gap (blank i few), nextWord?_append whole ends]
  have range := fun rest => nextWord?_append
    (isWord_range (zeros 0) (zeros 1) region.start.toNat region.stop.toNat)
    (apart 0 (by decide) rest)
  have access := fun rest => word 0 (by decide) perms (apart 1 (by decide) rest)
  have offset := fun rest => word 1 (by decide)
    (isWord_paddedDigits 16 (by decide) (by decide) (zeros 2) region.offset.toNat)
    (apart 2 (by decide) rest)
  have node := fun rest => word 2 (by decide) device (apart 3 (by decide) rest)
  have inode := word 3 (by decide)
    (isWord_paddedDigits 10 (by decide) (by decide) 0 region.inode.toNat) behind
  have named : trim (gap 4 ++ region.name.toList) = region.name.toList := by
    rw [trim_append_of_gap (blank 4 (by decide)), name]
  have hexadecimal := word?_paddedDigits 16 (by decide) (by decide) (zeros 2) region.offset
  have decimal := word?_paddedDigits 10 (by decide) (by decide) 0 region.inode
  rw [paddedDigits_zero] at inode decimal
  simp only [List.append_assoc, List.cons_append] at range
  simp only [parse?, paddedRecord, List.append_assoc, List.cons_append, range, access, offset,
    node, inode, named, parseRange?_paddedDigits, hexadecimal, decimal, Option.bind_eq_bind,
    Option.bind_some, Option.pure_def, String.ofList_toList]

/-- Whatever is read as a region can be recorded. -/
theorem isRecordable_of_parse? {line : List Char} {region : Region}
    (read : parse? line = some region) : region.IsRecordable := by
  unfold parse? at read
  simp only [Option.bind_eq_bind, Option.pure_def, Option.bind_eq_some_iff] at read
  obtain ⟨⟨_, _⟩, -, ⟨perms, _⟩, access, ⟨_, _⟩, -, ⟨device, _⟩, node, ⟨_, rest⟩, -, ⟨_, _⟩, -,
    _, -, _, -, same⟩ := read
  obtain rfl := Option.some.inj same
  refine ⟨?_, ?_, ?_⟩
  · rw [String.toList_ofList]
    exact (nextWord?_eq_some_iff.mp access).1
  · rw [String.toList_ofList]
    exact (nextWord?_eq_some_iff.mp node).1
  · rw [String.toList_ofList]
    exact trim_trim rest

theorem bind_nextWord?_append_gap {β : Type} {gap : List Char} (blank : IsGap gap)
    {next next' : List Char × List Char → Option β}
    (later : ∀ word rest, next (word, rest ++ gap) = next' (word, rest)) (text : List Char) :
    (nextWord? (text ++ gap)).bind next = (nextWord? text).bind next' := by
  rw [nextWord?_append_gap blank]
  cases nextWord? text with
  | none => rfl
  | some pair => exact later pair.1 pair.2

/-- Blanks behind a record are no part of it. -/
theorem parse?_append_gap {gap : List Char} (blank : IsGap gap) (line : List Char) :
    parse? (line ++ gap) = parse? line := by
  unfold parse?
  simp only [Option.bind_eq_bind]
  -- Each of the five words leaves the blanks behind, and the name is trimmed of them.
  apply bind_nextWord?_append_gap blank
  intro range rest
  apply bind_nextWord?_append_gap blank
  intro perms rest
  apply bind_nextWord?_append_gap blank
  intro offset rest
  apply bind_nextWord?_append_gap blank
  intro device rest
  apply bind_nextWord?_append_gap blank
  intro inode rest
  simp only [trim_append_gap blank]

theorem parse?_of_isGap {line : List Char} (blank : IsGap line) : parse? line = none := by
  rw [parse?, nextWord?_eq_none_iff.mpr blank]
  rfl

theorem lines_ne_nil (text : List Char) : lines text ≠ [] := by
  cases text with
  | nil => simp [lines]
  | cons c rest =>
      rw [lines]
      split
      · simp
      · split <;> simp

/-- A line feed parts the lines of a text. -/
theorem lines_append (front back : List Char) :
    lines (front ++ '\n' :: back) = lines front ++ lines back := by
  induction front with
  | nil => simp [lines]
  | cons c rest ih =>
      by_cases ends : c = '\n'
      · simp [lines, ends, ih]
      · cases shape : lines rest with
        | nil => exact absurd shape (lines_ne_nil rest)
        | cons first more => simp [lines, ends, ih, shape]

theorem lines_of_single {line : List Char} (single : '\n' ∉ line) : lines line = [line] := by
  induction line with
  | nil => rfl
  | cons c rest ih =>
      have other : c ≠ '\n' := fun same => single (same ▸ List.mem_cons_self ..)
      have later : '\n' ∉ rest := fun listed => single (List.mem_cons_of_mem _ listed)
      rw [lines, if_neg other, ih later]

/-- Maps one behind the other give the regions of both. -/
theorem parseAll_append (front back : String) :
    parseAll (front ++ "\n" ++ back) = parseAll front ++ parseAll back := by
  have parted : (front ++ "\n" ++ back).toList = front.toList ++ '\n' :: back.toList := by
    simp [String.toList_append]
  rw [parseAll, parted, lines_append, List.filterMap_append, parseAll, parseAll]

/-- The line of a map that records a region, or one that records none. -/
inductive IsLine : Option Region → List Char → Prop where
  | record {region : Region} {zeros : Nat → Nat} {gap : Nat → List Char}
      (recordable : region.IsRecordable) (separates : region.Separates gap)
      (gaps : ∀ i < 5, '\n' ∉ gap i) (name : '\n' ∉ region.name.toList) :
      IsLine (some region) (paddedRecord zeros gap region)
  | blank {line : List Char} (hollow : IsGap line) (single : '\n' ∉ line) : IsLine none line
  | malformed {line : List Char} (unread : parse? line = none) (single : '\n' ∉ line) :
      IsLine none line

/-- The text of a map, made of lines that end in a line feed with or without a carriage return, and
the regions that its lines record. -/
inductive IsMap : List Region → List Char → Prop where
  | last {region? : Option Region} {line : List Char} (only : IsLine region? line) :
      IsMap region?.toList line
  | more {region? : Option Region} {line ending rest : List Char} {regions : List Region}
      (first : IsLine region? line) (ends : ending ∈ [['\n'], ['\r', '\n']])
      (later : IsMap regions rest) : IsMap (region?.toList ++ regions) (line ++ ending ++ rest)

theorem IsLine.parse?_eq {region? : Option Region} {line : List Char}
    (holds : IsLine region? line) : parse? line = region? := by
  cases holds with
  | record recordable separates => exact parse?_paddedRecord recordable separates
  | blank hollow => exact parse?_of_isGap hollow
  | malformed unread => exact unread

theorem notMem_of_isWord {c : Char} (blank : isBlank c = true) {text : List Char}
    (whole : IsWord text) : c ∉ text := by
  intro listed
  rw [whole.2 c listed] at blank
  cases blank

theorem IsLine.single {region? : Option Region} {line : List Char} (holds : IsLine region? line) :
    '\n' ∉ line := by
  have feed : isBlank '\n' = true := by decide
  cases holds with
  | @record region zeros gap recordable separates gaps name =>
      have number : ∀ zeros n, '\n' ∉ paddedDigits 16 zeros n := fun zeros n =>
        notMem_of_isWord feed (isWord_paddedDigits 16 (by decide) (by decide) zeros n)
      have inode : '\n' ∉ paddedDigits 10 0 region.inode.toNat :=
        notMem_of_isWord feed (isWord_paddedDigits 10 (by decide) (by decide) 0 _)
      have perms := notMem_of_isWord feed recordable.perms
      have device := notMem_of_isWord feed recordable.device
      rw [paddedDigits_zero] at inode
      simp [paddedRecord, number, inode, perms, device, name, gaps]
  | blank hollow single => exact single
  | malformed unread single => exact single

/-- A map gives the regions of its lines, in order. -/
theorem filterMap_lines_of_isMap {regions : List Region} {text : List Char}
    (holds : IsMap regions text) : (lines text).filterMap parse? = regions := by
  induction holds with
  | @last region? line only =>
      rw [lines_of_single only.single, List.filterMap_cons, only.parse?_eq]
      cases region? <;> rfl
  | @more region? line ending rest regions first ends later ih =>
      -- What the end of a line leaves on it is blank.
      obtain ⟨gap, blank, single, rfl⟩ :
          ∃ gap, IsGap gap ∧ '\n' ∉ gap ∧ ending = gap ++ ['\n'] := by
        rcases List.mem_cons.mp ends with rfl | carried
        · exact ⟨[], by simp [IsGap], by simp, rfl⟩
        · obtain rfl := List.mem_singleton.mp carried
          exact ⟨['\r'], by decide, by decide, rfl⟩
      have whole : '\n' ∉ line ++ gap := by
        simp [first.single, single]
      have parted : line ++ (gap ++ ['\n']) ++ rest = (line ++ gap) ++ '\n' :: rest := by simp
      rw [parted, lines_append, lines_of_single whole, List.filterMap_append, ih,
        List.filterMap_cons, parse?_append_gap blank, first.parse?_eq]
      cases region? <;> rfl

theorem separates_single (region : Region) : region.Separates fun _ => [' '] :=
  fun _ _ => ⟨(by decide : IsGap [' ']), .inl (List.cons_ne_nil _ _)⟩

/-- Reading undoes recording: a region that can be recorded is read back from any record of it, only
such regions are ever read, and of a map exactly the recorded regions are read, in order. -/
theorem parseAll_inverts_recording :
    (∀ (region : Region) (zeros : Nat → Nat) (gap : Nat → List Char),
      region.IsRecordable → region.Separates gap →
        parse? (paddedRecord zeros gap region) = some region) ∧
    (∀ (line : List Char) (region : Region), parse? line = some region →
      region.IsRecordable ∧ parse? region.record = some region) ∧
    (∀ (regions : List Region) (text : String), IsMap regions text.toList →
      parseAll text = regions) ∧
    ∀ front back : String,
      parseAll (front ++ "\n" ++ back) = parseAll front ++ parseAll back := by
  refine ⟨?_, ?_, ?_, parseAll_append⟩
  · intro region zeros gap recordable separates
    exact parse?_paddedRecord recordable separates
  · intro line region read
    have recordable := isRecordable_of_parse? read
    refine ⟨recordable, ?_⟩
    rw [record, ← paddedRecord_zero]
    exact parse?_paddedRecord recordable region.separates_single
  · intro regions text holds
    exact filterMap_lines_of_isMap holds

/-- The region of a program whose path holds a blank. -/
def programRegion : Region where
  start := 0x400000
  stop := 0x401000
  perms := "r-xp"
  offset := 0x2000
  device := "08:01"
  inode := 42
  name := "/opt/my app"

/-- A region that no file and no name belongs to. -/
def anonymousRegion : Region where
  start := 0x7f1e2c000000
  stop := 0x7f1e2c021000
  perms := "rw-p"
  offset := 0
  device := "00:00"
  inode := 0
  name := ""

/-- Two records among a malformed and a blank line. -/
def sparseMap : String :=
  "garbage\r\n00400000-00401000 r-xp 00002000 08:01 42   /opt/my app\n \n" ++
    "7f1e2c000000-7f1e2c021000 rw-p 00000000 00:00 0"

/-- Both regions of the map are read back, one by one and from the map. -/
theorem parseAll_sparseMap :
    let wide : Nat → List Char := fun i => if i = 4 then [' ', ' ', ' '] else [' ']
    let zeros : Nat → Nat := fun i => if i = 2 then 4 else 2
    programRegion.IsRecordable ∧ programRegion.Separates wide ∧
      parse? (paddedRecord zeros wide programRegion) = some programRegion ∧
      parse? anonymousRegion.record = some anonymousRegion ∧
      IsMap [programRegion, anonymousRegion] sparseMap.toList ∧
      parseAll sparseMap = [programRegion, anonymousRegion] ∧
      parseAll (sparseMap ++ "\n" ++ "garbage") =
        [programRegion, anonymousRegion] ++ parseAll "garbage" := by
  intro wide zeros
  let tight : Nat → List Char := fun i => if i = 4 then [] else [' ']
  let more : Nat → Nat := fun i => if i = 2 then 7 else 0
  obtain ⟨each, only, whole, parted⟩ := parseAll_inverts_recording
  have recordable : programRegion.IsRecordable := ⟨by decide, by decide, by decide⟩
  have unnamed : anonymousRegion.IsRecordable := ⟨by decide, by decide, by decide⟩
  have separate : programRegion.Separates wide := by decide
  have apart : anonymousRegion.Separates tight := by decide
  have map : IsMap [programRegion, anonymousRegion] sparseMap.toList := by
    have shape : sparseMap.toList = "garbage".toList ++ ['\r', '\n'] ++
        (paddedRecord zeros wide programRegion ++ ['\n'] ++
          ([' '] ++ ['\n'] ++ paddedRecord more tight anonymousRegion)) := by decide +kernel
    rw [shape]
    apply IsMap.more (.malformed (by decide +kernel) (by decide +kernel)) (by decide)
    apply IsMap.more (.record recordable separate (by decide) (by decide)) (by decide)
    apply IsMap.more (.blank (by decide) (by decide)) (by decide)
    exact IsMap.last (.record unnamed apart (by decide) (by decide))
  have read := whole _ _ map
  refine ⟨recordable, separate, each _ zeros wide recordable separate, ?_, map, read, ?_⟩
  · exact (only _ _ (each _ more tight unnamed apart)).2
  · rw [parted, read]

end ElfLens.Region
