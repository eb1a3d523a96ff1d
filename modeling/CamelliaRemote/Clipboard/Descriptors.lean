import CamelliaRemote.Clipboard.FileDescription

namespace CamelliaRemote.Clipboard
open Codec UnixPath FileDescription

/-- A text as the receiver reads it: every backslash is a separator. -/
def slashed (s : List Char) : List Char := s.map fun c => if c = '\\' then '/' else c

/-- The modification time in steps of 100 ns; a time before the epoch is the epoch. -/
def LocalFile.sentTime (f : LocalFile) : Nat := f.lastWriteTime.toNat / 100 * 100

/-- A file with a modification time as it is read. -/
def LocalFile.describeAt (f : LocalFile) (connId : Int) (time : Nat) : FileDescription where
  connId := connId
  name := slashed f.relativePath.toList
  kind := if f.isDir then .directory else .file
  atime := time
  lastModified := time
  lastMetadataChanged := time
  creationTime := time
  size := f.size.toNat
  perm := f.perm.toNat % 2 ^ 16

/-- **What the receiver knows of a file**: its relative path, its kind, its size,
the low 16 bits of its mode and its modification time. -/
def LocalFile.describe (f : LocalFile) (connId : Int) : FileDescription :=
  f.describeAt connId f.sentTime

/-- A file as the receiver reads it, whatever its time. -/
def LocalFile.received (f : LocalFile) (connId : Int) : FileDescription :=
  f.describeAt connId (writeTime LocalFile.flags f.win32Time)

/-- The relative path is valid UTF-8 without a NUL. -/
def LocalFile.Named (f : LocalFile) : Prop :=
  ∃ s : String, (stripPrefix f.relativeRoot f.path).getD f.path = utf8 s ∧ '\x00' ∉ s.toList

/-- The code units of the relative path. -/
def LocalFile.nameUnits (f : LocalFile) : Nat := (Utf16.encodeUnits f.relativePath.toList).length

variable {f : LocalFile} {files : List LocalFile} {connId : Int}

theorem LocalFile.Named.noNul (h : f.Named) : '\x00' ∉ f.relativePath.toList := by
  obtain ⟨s, bytes, noNul⟩ := h
  rw [relativePath, bytes, fromUtf8Lossy_utf8]
  exact noNul

theorem getLe_append {before after : Bytes} {start len n : Nat} (h : before.length = start)
    (fits : n < 256 ^ len) : getLe (before ++ (toLittleEndian len n ++ after)) start len = n := by
  rw [getLe, ← h, List.drop_left, List.take_append_of_le_length (by simp),
    List.take_of_length_le (by simp)]
  exact ofLittleEndian_toLittleEndian fits

theorem LocalFile.length_header (f : LocalFile) : f.header.length = 72 := by
  simp [header]

theorem LocalFile.fileAttributes_lt (f : LocalFile) : f.fileAttributes < 256 ^ 4 := by
  unfold fileAttributes
  cases f.readOnly <;> cases f.hidden <;> cases f.system <;> cases f.isDir <;> cases f.archive <;>
    cases f.normal <;> decide

theorem LocalFile.fileAttributes_dir (f : LocalFile) :
    (f.fileAttributes &&& 0x10 ≠ 0) = (f.isDir = true) := by
  unfold fileAttributes
  cases f.readOnly <;> cases f.hidden <;> cases f.system <;> cases f.isDir <;> cases f.archive <;>
    cases f.normal <;> decide

theorem LocalFile.win32Time_lt (f : LocalFile) : f.win32Time < 256 ^ 8 := by
  unfold win32Time ldapEpochDelta
  omega

theorem LocalFile.received_eq (soon : f.lastWriteTime < 2 ^ 64) (connId : Int) :
    f.received connId = f.describe connId := by
  have flagged : LocalFile.flags &&& flagsFdLastWrite ≠ 0 := by decide
  have whole : f.lastWriteTime.toNat % 2 ^ 64 = f.lastWriteTime.toNat :=
    Nat.mod_eq_of_lt (by omega)
  unfold received describe writeTime win32Time sentTime
  rw [whole, if_pos ⟨flagged, Nat.le_add_left _ _⟩, Nat.add_sub_cancel,
    Nat.mod_eq_of_lt (by omega)]

/-- The name in its block, read back and trimmed. -/
theorem trimEndNul_slashed {s : List Char} (h : '\x00' ∉ s) (n : Nat) :
    trimEndNul (slashed (s ++ List.replicate n '\x00')) = slashed s := by
  have nul : '\x00' ∉ slashed s := by
    intro mem
    obtain ⟨c, mem, is⟩ := List.mem_map.mp mem
    split at is
    · simp at is
    · exact h (is ▸ mem)
  rw [slashed, List.map_append, List.map_replicate]
  change (slashed s ++ List.replicate n '\x00').rdropWhile (· = '\x00') = slashed s
  induction n with
  | zero =>
    rw [List.replicate_zero, List.append_nil, List.rdropWhile_eq_self_iff]
    intro nonempty isNul
    exact nul ((of_decide_eq_true isNul) ▸ List.getLast_mem nonempty)
  | succ n ih =>
    rw [List.replicate_succ', ← List.append_assoc, List.rdropWhile_concat_pos _ _ _ (by simp)]
    exact ih

theorem asBin_eq (short : f.nameUnits ≤ 260) :
    f.asBin = some (f.header ++
      Utf16.encode (f.relativePath.toList ++ List.replicate (260 - f.nameUnits) '\x00')) := by
  have length := Utf16.length_encode f.relativePath.toList
  unfold LocalFile.nameUnits at short ⊢
  unfold LocalFile.asBin
  simp only [length]
  rw [if_neg (by omega), Utf16.encode_append, Utf16.encode_replicate_nul, List.append_assoc,
    Nat.mul_sub]

theorem length_nameBlock (short : f.nameUnits ≤ 260) :
    (Utf16.encode
      (f.relativePath.toList ++ List.replicate (260 - f.nameUnits) '\x00')).length = 520 := by
  rw [Utf16.encode_append, Utf16.encode_replicate_nul, List.length_append, Utf16.length_encode,
    List.length_replicate]
  unfold LocalFile.nameUnits at short ⊢
  omega

/-- The numbers of a descriptor stand where the parser reads them. -/
theorem header_numbers (f : LocalFile) (name : Bytes) :
    getLe (f.header ++ name) 0 4 = LocalFile.flags ∧
      getLe (f.header ++ name) 36 4 = f.fileAttributes ∧
      getLe (f.header ++ name) 52 4 = f.perm.toNat ∧
      getLe (f.header ++ name) 56 8 = f.win32Time ∧
      getLe (f.header ++ name) 64 4 = f.size.toNat / 2 ^ 32 ∧
      getLe (f.header ++ name) 68 4 = f.size.toNat % 2 ^ 32 := by
  have perm : f.perm.toNat < 256 ^ 4 := f.perm.toNat_lt
  have size : f.size.toNat < 2 ^ 64 := f.size.toNat_lt
  have flags : LocalFile.flags < 256 ^ 4 := by decide
  simp only [LocalFile.header, List.append_assoc]
  refine ⟨?_, ?_, ?_, ?_, ?_, ?_⟩
  · rw [← List.nil_append (toLittleEndian 4 LocalFile.flags ++ _)]
    exact getLe_append List.length_nil flags
  · rw [← List.append_assoc]
    exact getLe_append (by simp) f.fileAttributes_lt
  · iterate 3 rw [← List.append_assoc]
    exact getLe_append (by simp) perm
  · iterate 4 rw [← List.append_assoc]
    exact getLe_append (by simp) f.win32Time_lt
  · iterate 5 rw [← List.append_assoc]
    exact getLe_append (by simp) (by omega)
  · iterate 6 rw [← List.append_assoc]
    exact getLe_append (by simp) (by omega)

/-- A descriptor is read back. -/
theorem parse_asBin (named : f.Named) (short : f.nameUnits ≤ 260) (connId : Int) :
    ∃ bytes, f.asBin = some bytes ∧ bytes.length = 592 ∧
      parseFileDescriptor bytes connId = .ok (f.received connId) := by
  refine ⟨_, asBin_eq short, ?_, ?_⟩
  · rw [List.length_append, f.length_header, length_nameBlock short]
  · have block : ((f.header ++ Utf16.encode (f.relativePath.toList ++
        List.replicate (260 - f.nameUnits) '\x00')).drop 72).take 520 =
        Utf16.encode (f.relativePath.toList ++
          List.replicate (260 - f.nameUnits) '\x00') := by
      rw [← f.length_header, List.drop_left, List.take_of_length_le]
      exact (length_nameBlock short).le
    obtain ⟨flags, attributes, perm, time, high, low⟩ := header_numbers f
      (Utf16.encode (f.relativePath.toList ++ List.replicate (260 - f.nameUnits) '\x00'))
    have attributed : ¬ LocalFile.flags &&& flagsFdAttributes = 0 := by decide
    have fromUnix : LocalFile.flags &&& flagsFdUnixMode ≠ 0 := by decide
    have size : f.size.toNat / 2 ^ 32 * 2 ^ 32 + f.size.toNat % 2 ^ 32 = f.size.toNat := by
      omega
    have name := trimEndNul_slashed named.noNul (260 - f.nameUnits)
    unfold parseFileDescriptor
    simp only [flags, attributes, perm, time, high, low, block, Utf16.decode_encode]
    rw [if_neg attributed, unixMode, if_pos fromUnix, size]
    simp only [f.fileAttributes_dir]
    exact congrArg Except.ok (by rw [LocalFile.received, LocalFile.describeAt, ← name]; rfl)

theorem parseMany_descriptors (named : ∀ f ∈ files, f.Named)
    (short : ∀ f ∈ files, f.nameUnits ≤ 260) (connId : Int) :
    ∃ data, descriptors files = some data ∧ data.length = 592 * files.length ∧
      parseMany connId files.length data = .ok (files.map (·.received connId)) := by
  induction files with
  | nil => exact ⟨[], rfl, rfl, rfl⟩
  | cons f files ih =>
    simp only [List.mem_cons, forall_eq_or_imp] at named short
    obtain ⟨bytes, first, width, parsed⟩ := parse_asBin named.1 short.1 connId
    obtain ⟨data, rest, length, all⟩ := ih named.2 short.2
    refine ⟨bytes ++ data, by simp [descriptors, first, rest], ?_, ?_⟩
    · rw [List.length_append, width, length, List.length_cons]
      omega
    · have head : (bytes ++ data).take 592 = bytes := by rw [← width, List.take_left]
      have tail : (bytes ++ data).drop 592 = data := by rw [← width, List.drop_left]
      rw [List.length_cons, parseMany, head, tail, parsed, all]
      rfl

/-- The count in front of the descriptors has 32 bits; a longer list is refused. -/
theorem parse_counted {n : Nat} {data : Bytes} (length : data.length = 592 * n) (connId : Int) :
    parseFileDescriptors (toLittleEndian 4 (n % 2 ^ 32) ++ data) connId =
      if n < 2 ^ 32 then parseMany connId n data
      else .error (.invalidRequest "file descriptor request with invalid length") := by
  have count : getLe (toLittleEndian 4 (n % 2 ^ 32) ++ data) 0 4 = n % 2 ^ 32 := by
    rw [← List.nil_append (toLittleEndian 4 _ ++ _)]
    exact getLe_append List.length_nil (Nat.mod_lt _ (by decide))
  have body : (toLittleEndian 4 (n % 2 ^ 32) ++ data).drop 4 = data :=
    List.drop_left' (length_toLittleEndian 4 _)
  unfold parseFileDescriptors
  rw [if_neg (by simp)]
  simp only [count, body, length]
  by_cases fits : n < 2 ^ 32
  · rw [if_pos fits, Nat.mod_eq_of_lt fits]
    by_cases none : n = 0
    · simp [none, parseMany]
    · rw [if_neg (by omega), if_neg (by omega)]
  · rw [if_neg fits, if_neg (by omega), if_pos (by omega)]

/-- What is sent for a list of files, and what is read. -/
theorem parse_buildFileListPdu (named : ∀ f ∈ files, f.Named)
    (short : ∀ f ∈ files, f.nameUnits ≤ 260) (connId : Int) :
    ∃ pdu, buildFileListPdu files = some pdu ∧ pdu.length = 4 + 592 * files.length ∧
      parseFileDescriptors pdu connId =
        if files.length < 2 ^ 32 then .ok (files.map (·.received connId))
        else .error (.invalidRequest "file descriptor request with invalid length") := by
  obtain ⟨data, built, length, parsed⟩ := parseMany_descriptors named short connId
  refine ⟨toLittleEndian 4 (files.length % 2 ^ 32) ++ data, ?_, ?_, ?_⟩
  · rw [buildFileListPdu, built]
    rfl
  · rw [List.length_append, length_toLittleEndian, length]
  · rw [parse_counted length, parsed]

/-- **Clipboard file descriptors round-trip.** -/
theorem descriptors_round_trip (files : List LocalFile) (connId : Int)
    (named : ∀ f ∈ files, f.Named) (short : ∀ f ∈ files, f.nameUnits ≤ 260)
    (soon : ∀ f ∈ files, f.lastWriteTime < 2 ^ 64) (count : files.length < 2 ^ 32) :
    ∃ pdu, buildFileListPdu files = some pdu ∧ pdu.length = 4 + 592 * files.length ∧
      parseFileDescriptors pdu connId = .ok (files.map (·.describe connId)) := by
  obtain ⟨pdu, built, length, parsed⟩ := parse_buildFileListPdu named short connId
  refine ⟨pdu, built, length, ?_⟩
  rw [parsed, if_pos count]
  exact congrArg Except.ok
    (List.map_congr_left fun f mem => LocalFile.received_eq (soon f mem) connId)

/-- A file of `/home` with the given name, as bytes. -/
def sampleFile (name : String) : LocalFile where
  relativeRoot := utf8 "/home"
  path := utf8 "/home/" ++ utf8 name
  size := 8589934597
  lastWriteTime := 1700000000123456789
  isDir := false
  perm := 0o100644
  readOnly := false
  hidden := false
  system := false
  archive := false
  normal := true

/-- A directory and a file in it whose name is a surrogate pair. -/
def sampleSelection : List LocalFile :=
  [{ sampleFile "notes" with size := 0, isDir := true, perm := 0o40755, normal := false },
    sampleFile "notes/😀"]

theorem descriptors_round_trip_notes :
    ∃ pdu, buildFileListPdu sampleSelection = some pdu ∧ pdu.length = 1188 ∧
      parseFileDescriptors pdu 7 = .ok (sampleSelection.map (·.describe 7)) := by
  have named : ∀ f ∈ sampleSelection, f.Named := by
    simp only [sampleSelection, List.forall_mem_cons, List.not_mem_nil, false_imp_iff,
      implies_true, and_true]
    exact ⟨⟨"notes", by decide +kernel, by decide⟩, ⟨"notes/😀", by decide +kernel, by decide⟩⟩
  exact descriptors_round_trip sampleSelection 7 named (by decide +kernel) (by decide +kernel)
    (by decide)

/-- A backslash of a name arrives as a separator, and a time before the epoch as the epoch. -/
theorem backslash_becomes_separator :
    let old := { sampleFile "a\\b" with lastWriteTime := -150 }
    old.relativePath = "a\\b" ∧
      ((buildFileListPdu [old]).map (parseFileDescriptors · 7)) =
        some (.ok [{ (sampleFile "a\\b").describe 7 with
          name := ['a', '/', 'b'], atime := 0, lastModified := 0, lastMetadataChanged := 0
          creationTime := 0 }]) ∧
      ['a', '/', 'b'] ≠ old.relativePath.toList ∧ (0 : Int) ≠ old.lastWriteTime / 100 * 100 := by
  decide +kernel

end CamelliaRemote.Clipboard
