import CamelliaRemote.Portable.Reader

namespace CamelliaRemote.Portable
open Codec

/-- The paths both sides accept. -/
structure NormalPath (path : String) : Prop where
  nonempty : utf8 path ≠ []
  short : (utf8 path).length ≤ maxPathBytes
  backslash : '\\' ∉ path.toList
  colon : ':' ∉ path.toList
  nul : '\x00' ∉ path.toList
  components : ∀ c ∈ path.toList.splitOn '/', c ≠ [] ∧ c ≠ ['.'] ∧ c ≠ ['.', '.']

theorem encodeArchivePath_eq_ok {path label : String} {bytes : Bytes} :
    encodeArchivePath path label = .ok bytes ↔ NormalPath path ∧ bytes = utf8 path := by
  unfold encodeArchivePath
  split
  · rename_i bad
    simp only [reduceCtorEq, false_iff, not_and]
    rintro ⟨h1, h2, h3, h4, h5, h6⟩
    rcases bad with bad | bad | bad | bad | bad | ⟨c, mem, bad⟩
    · exact absurd bad h1
    · omega
    · exact absurd bad h3
    · exact absurd bad h4
    · exact absurd bad h5
    · have := h6 c mem
      simp_all
  · rename_i good
    simp only [not_or, not_exists, not_and, Nat.not_lt, List.mem_cons, List.not_mem_nil,
      or_false] at good
    obtain ⟨h1, h2, h3, h4, h5, h6⟩ := good
    have normal : NormalPath path := ⟨h1, h2, h3, h4, h5, h6⟩
    simp [normal, eq_comm]

theorem innerComponent_normal {name : List Char}
    (h : name ≠ [] ∧ name ≠ ['.'] ∧ name ≠ ['.', '.']) :
    innerComponent name = some (.normal name) := by
  unfold innerComponent
  split <;> simp_all

/-- A normal path has one normal component for each piece. -/
theorem NormalPath.components_eq {path : String} (h : NormalPath path) :
    (PathBuf.mk path).components = (path.toList.splitOn '/').map .normal := by
  have pieces := h.components
  unfold PathBuf.components
  cases split : path.toList.splitOn '/' with
  | nil => rfl
  | cons first rest =>
    rw [split] at pieces
    have head := pieces first List.mem_cons_self
    have tail : rest.filterMap innerComponent = rest.map .normal := by
      rw [← List.filterMap_eq_map]
      exact List.filterMap_congr fun c hc =>
        innerComponent_normal (pieces c (List.mem_cons_of_mem _ hc))
    simp only [tail, List.map_cons]
    split <;> simp_all

theorem NormalPath.components_inj {a b : String} (ha : NormalPath a) (hb : NormalPath b) :
    (PathBuf.mk a).components = (PathBuf.mk b).components ↔ a = b := by
  rw [ha.components_eq, hb.components_eq]
  constructor
  · intro same
    have pieces : a.toList.splitOn '/' = b.toList.splitOn '/' :=
      List.map_injective_iff.mpr (fun _ _ h => by simpa using h) same
    have whole (s : List Char) : ['/'].intercalate (s.splitOn '/') = s :=
      List.intercalate_splitOn '/'
    apply String.toList_injective
    rw [← whole a.toList, pieces, whole]
  · rintro rfl
    rfl

theorem parseArchivePath_eq_ok {raw : Bytes} {label : String} {path : PathBuf} :
    parseArchivePath raw label = .ok path ↔ NormalPath path.value ∧ raw = utf8 path.value := by
  unfold parseArchivePath
  split
  · rename_i bad
    simp only [reduceCtorEq, false_iff, not_and]
    rintro normal rfl
    rcases bad with empty | long
    · exact normal.nonempty empty
    · exact absurd normal.short (by omega)
  · rename_i sized
    split
    · rename_i invalid
      simp only [reduceCtorEq, false_iff, not_and]
      rintro - rfl
      simp [strFromUtf8_eq_some.mpr rfl] at invalid
    · rename_i value decoded
      have raw_eq := strFromUtf8_eq_some.mp decoded
      split
      · rename_i bad
        simp only [reduceCtorEq, false_iff, not_and]
        rintro normal same
        have : path.value = value := by
          have := strFromUtf8_eq_some.mpr same
          simpa [decoded] using this.symm
        subst this
        rcases bad with bad | bad | bad | ⟨c, mem, bad⟩
        · exact normal.backslash bad
        · exact normal.colon bad
        · exact normal.nul bad
        · have := normal.components c mem
          tauto
      · rename_i good
        simp only [not_or, not_exists, not_and, Nat.not_lt] at good sized
        have normal : NormalPath value :=
          ⟨raw_eq ▸ sized.1, raw_eq ▸ sized.2, good.1, good.2.1, good.2.2.1, good.2.2.2⟩
        have components := normal.components_eq
        have all : (PathBuf.mk value).components.all Component.isNormal = true := by
          simp [components, Component.isNormal]
        have relative : (PathBuf.mk value).isRelative = true := by
          unfold PathBuf.isRelative
          rw [components]
          cases value.toList.splitOn '/' <;> simp
        simp only [all, relative, Bool.not_true, Bool.or_self, Bool.false_eq_true, if_false,
          Except.ok.injEq]
        constructor
        · rintro rfl
          exact ⟨normal, raw_eq⟩
        · rintro ⟨-, same⟩
          have := strFromUtf8_eq_some.mpr same
          rw [decoded] at this
          cases path
          simpa using this

structure ValidFile (file : BinaryData) : Prop where
  path : NormalPath file.path.value
  compressed : file.compressed.length ≤ maxFileBytes
  uncompressed : file.uncompressedLength ≤ maxFileBytes

def encodeFile (file : BinaryData) : Bytes :=
  toBigEndian 4 (utf8 file.path.value).length ++ toBigEndian 8 file.compressed.length ++
    toBigEndian 8 file.uncompressedLength ++ file.sha256Digest.1 ++ utf8 file.path.value ++
    file.compressed

/-- The files in order, each with a path that none before it has. -/
def ValidFiles : List PathBuf → List BinaryData → Prop
  | _, [] => True
  | paths, file :: files =>
    ValidFile file ∧ containsPath paths file.path = false ∧ ValidFiles (file.path :: paths) files

def encodeReader (reader : BinaryReader) : Bytes :=
  archiveMagic ++ toBigEndian 4 reader.files.length ++ reader.files.flatMap encodeFile ++
    toBigEndian 4 (utf8 reader.exe.value).length ++ utf8 reader.exe.value

section Readers

variable {data : Bytes} (fits : data.length < 2 ^ 64)
include fits

theorem takeBytes_exact (n : Nat) : Exact data (takeBytes data n) id (·.length = n) := by
  intro i bytes j hi
  unfold takeBytes
  split
  · simp only [reduceCtorEq, false_iff, not_and]
    rintro rfl stands
    have := length_le_of_prefix_drop hi stands
    simp only [id] at this
    omega
  · split
    · rename_i inside
      simp only [Except.ok.injEq, Prod.mk.injEq, id]
      have length : ((data.drop i).take n).length = n := by
        rw [List.length_take, List.length_drop]
        omega
      constructor
      · rintro ⟨rfl, rfl⟩
        exact ⟨length, List.take_prefix _ _, by rw [length]⟩
      · rintro ⟨rfl, stands, rfl⟩
        exact ⟨(List.prefix_iff_eq_take.mp stands).symm, rfl⟩
    · simp only [reduceCtorEq, false_iff, not_and]
      rintro rfl stands
      have := length_le_of_prefix_drop hi stands
      simp only [id] at this
      omega

/-- A number of `n` bytes, as `read_u32` and `read_u64` read it. -/
theorem readUint_exact (n : Nat) :
    Exact data (do return ofBigEndian (← takeBytes data n) : Archive Nat) (toBigEndian n)
      (· < 256 ^ n) := by
  refine (Exact.bind (toBigEndian n) (takeBytes_exact fits n) (fun _ _ => Exact.pure) ?_).congr
    ?_ (by simp)
  · rintro bytes value length rfl
    rw [← length, toBigEndian_ofBigEndian]
  · intro value
    constructor
    · rintro ⟨-, same⟩
      rw [same]
      simpa using ofBigEndian_lt (toBigEndian n value)
    · intro small
      exact ⟨by simp, (ofBigEndian_toBigEndian small).symm⟩

theorem readDigest_exact : Exact data (readDigest data) Subtype.val (fun _ => True) := by
  refine (Exact.bind (g := fun _ _ => []) (w := fun bytes digest => bytes = digest.1)
    Subtype.val (takeBytes_exact fits digestLength) ?_ (fun _ _ _ same => same)).congr
    (fun digest => by simp [digest.2]) (by simp)
  intro bytes length i digest j _
  simp only [length, dif_pos]
  change Except.ok ((⟨bytes, length⟩ : Digest), i) = Except.ok (digest, j) ↔ _
  simp [Subtype.ext_iff, eq_comm]

theorem readPath_exact (length : Nat) (label : String) :
    Exact data (readPath data length label) (fun path => utf8 path.value)
      (fun path => NormalPath path.value ∧ (utf8 path.value).length = length) := by
  refine (Exact.bind (g := fun _ _ => [])
    (w := fun raw path => NormalPath path.value ∧ raw = utf8 path.value)
    (fun path => utf8 path.value) (takeBytes_exact fits length) ?_
    (fun _ _ _ same => same.2)).congr (fun path => by simp [and_comm]) (by simp)
  intro raw _ i path j _
  beta_reduce
  rw [← @parseArchivePath_eq_ok raw label path]
  cases parsed : parseArchivePath raw label with
  | ok p =>
    change Except.ok (p, i) = Except.ok (path, j) ↔ _
    simp [eq_comm]
  | error e =>
    change Except.error e = Except.ok (path, j) ↔ _
    simp

/-- The last reads of a file, once its lengths and its path are known. -/
theorem readContent_exact (paths : List PathBuf) (e : String) (compressedLength : Nat)
    (sha256Digest : Digest) (uncompressedLength : Nat) (path : PathBuf) :
    Exact data (do
      failIf (containsPath paths path) e
      let compressed ← takeBytes data compressedLength
      return { compressed, sha256Digest, uncompressedLength, path } : Archive BinaryData)
      (·.compressed) (fun file => containsPath paths file.path = false ∧
        file.compressed.length = compressedLength ∧ file.sha256Digest = sha256Digest ∧
        file.uncompressedLength = uncompressedLength ∧ file.path = path) := by
  have content := Exact.bind (BinaryData.compressed) (takeBytes_exact fits compressedLength)
    (fun compressed _ => Exact.pure (ε := String)
      (a := BinaryData.mk compressed sha256Digest uncompressedLength path))
    (by rintro compressed file - rfl; rfl)
  refine (Exact.bind (fun _ => ()) exact_failIf (fun _ _ => content) (fun _ _ _ _ => rfl)).congr
    ?_ (by simp)
  rintro ⟨compressed, digest, uncompressed, path'⟩
  simp only [BinaryData.mk.injEq, true_and, Bool.not_eq_true]
  constructor
  · rintro ⟨fresh, length, rfl, rfl, rfl⟩
    exact ⟨fresh, length, rfl, rfl, rfl⟩
  · rintro ⟨fresh, length, rfl, rfl, rfl⟩
    exact ⟨fresh, length, rfl, rfl, rfl⟩

theorem readFile_exact (paths : List PathBuf) :
    Exact data (readFile data paths) encodeFile
      (fun file => ValidFile file ∧ containsPath paths file.path = false) := by
  have named (pathLength compressedLength uncompressedLength : Nat) (sha256Digest : Digest) :=
    Exact.bind BinaryData.path (readPath_exact fits pathLength "archive path")
      (fun path _ => readContent_exact fits paths
        s!"portable archive contains a duplicate path: {path.value}" compressedLength
        sha256Digest uncompressedLength path)
      (fun _ _ _ same => same.2.2.2.2.symm)
  have digested (pathLength compressedLength uncompressedLength : Nat) :=
    Exact.bind BinaryData.sha256Digest (readDigest_exact fits)
      (fun digest _ => named pathLength compressedLength uncompressedLength digest)
      (fun _ _ _ same => same.2.2.2.1.symm)
  have sized (pathLength compressedLength uncompressedLength : Nat) :=
    Exact.bind (fun _ => ()) (@exact_failIf _ data
      (maxFileBytes < compressedLength ∨ maxFileBytes < uncompressedLength) _
      "portable archive file exceeds the size limit")
      (fun _ _ => digested pathLength compressedLength uncompressedLength)
      (fun _ _ _ _ => rfl)
  have third (pathLength compressedLength : Nat) :=
    Exact.bind BinaryData.uncompressedLength (readUint_exact fits 8)
      (fun length _ => sized pathLength compressedLength length)
      (fun _ _ _ same => same.2.2.2.2.2.2.1.symm)
  have second (pathLength : Nat) :=
    Exact.bind (fun file => file.compressed.length) (readUint_exact fits 8)
      (fun length _ => third pathLength length)
      (fun _ _ _ same => same.2.2.2.2.2.1.symm)
  refine (Exact.bind (fun file => (utf8 file.path.value).length) (readUint_exact fits 4)
    (fun length _ => second length) (fun _ _ _ same => same.2.2.2.2.1.2.symm)).congr ?_ ?_
  · intro file
    simp only [not_or, Nat.not_lt, true_and, and_true]
    constructor
    · rintro ⟨-, -, -, ⟨compressed, uncompressed⟩, normal, fresh⟩
      exact ⟨⟨normal, compressed, uncompressed⟩, fresh⟩
    · rintro ⟨⟨normal, compressed, uncompressed⟩, fresh⟩
      have short := normal.short
      simp only [maxFileBytes, maxPathBytes] at compressed uncompressed short ⊢
      exact ⟨by omega, by omega, by omega, ⟨compressed, uncompressed⟩, normal, fresh⟩
  · intro file _
    simp [encodeFile]

theorem readFiles_exact (n : Nat) (paths : List PathBuf) :
    Exact data (readFiles data n paths) (·.flatMap encodeFile)
      (fun files => files.length = n ∧ ValidFiles paths files) := by
  induction n generalizing paths with
  | zero =>
    refine Exact.pure.congr (fun files => ?_) (fun files empty => ?_)
    · constructor
      · rintro rfl
        exact ⟨rfl, trivial⟩
      · rintro ⟨empty, -⟩
        exact List.length_eq_zero_iff.mp empty
    · simp [List.length_eq_zero_iff.mp empty.1]
  | succ n ih =>
    have rest (file : BinaryData) :=
      Exact.bind List.tail (ih (file.path :: paths))
        (fun files _ => Exact.pure (ε := String) (a := file :: files))
        (by rintro files all - rfl; rfl)
    intro i files j hi
    have step : readFiles data (n + 1) paths = readFile data paths >>= fun file =>
      readFiles data n (file.path :: paths) >>= fun files => Pure.pure (file :: files) := rfl
    rw [step, bind_eq_ok]
    constructor
    · rintro ⟨file, k, first, second⟩
      obtain ⟨⟨valid, fresh⟩, stands, rfl⟩ := (readFile_exact fits paths i file k hi).mp first
      obtain ⟨⟨tail, whole⟩, stands', rfl⟩ :=
        (rest file _ files j (length_le_of_prefix_drop hi stands)).mp second
      rw [whole] at tail stands' ⊢
      simp only [List.tail_cons, List.append_nil] at tail stands' ⊢
      refine ⟨⟨by simp [tail.1], valid, fresh, tail.2⟩, ?_, ?_⟩
      · exact append_prefix_drop.mpr ⟨stands, stands'⟩
      · simp [Nat.add_assoc]
    · rintro ⟨⟨length, valid⟩, stands, rfl⟩
      cases files with
      | nil => simp at length
      | cons file files =>
        obtain ⟨first, fresh, tail⟩ := valid
        obtain ⟨here, next⟩ := append_prefix_drop.mp (by simpa using stands)
        refine ⟨file, i + (encodeFile file).length,
          (readFile_exact fits paths i file _ hi).mpr ⟨⟨first, fresh⟩, here, rfl⟩, ?_⟩
        refine (rest file _ (file :: files) _ (length_le_of_prefix_drop hi here)).mpr
          ⟨⟨⟨by simpa using length, tail⟩, rfl⟩, by simpa using next, ?_⟩
        simp [Nat.add_assoc]

theorem readParts_exact :
    Exact data (readParts data) encodeReader (fun reader => ValidFiles [] reader.files ∧
      reader.files ≠ [] ∧ reader.files.length ≤ maxFileCount ∧
      NormalPath reader.exe.value) := by
  have named (files : List BinaryData) (length : Nat) :=
    Exact.bind BinaryReader.exe (readPath_exact fits length "executable path")
      (fun exe _ => Exact.pure (ε := String) (a := BinaryReader.mk files exe))
      (by rintro exe reader - rfl; rfl)
  have executable (files : List BinaryData) :=
    Exact.bind (fun reader => (utf8 reader.exe.value).length) (readUint_exact fits 4)
      (fun length _ => named files length) (fun _ _ _ same => same.1.2.symm)
  have listed (count : Nat) :=
    Exact.bind BinaryReader.files (readFiles_exact fits count [])
      (fun files _ => executable files)
      (by rintro files reader - ⟨-, -, same⟩; rw [same])
  have limited (count : Nat) :=
    Exact.bind (fun _ => ()) (@exact_failIf _ data (count = 0 ∨ maxFileCount < count) _
      "portable archive has an invalid file count")
      (fun _ _ => listed count) (fun _ _ _ _ => rfl)
  have counted :=
    Exact.bind (fun reader => reader.files.length) (readUint_exact fits 4)
      (fun count _ => limited count) (fun _ _ _ same => same.2.1.1.symm)
  have marked (magic : Bytes) :=
    Exact.bind (fun _ => ()) (@exact_failIf _ data (magic ≠ archiveMagic) _
      "portable archive has an invalid format marker")
      (fun _ _ => counted) (fun _ _ _ _ => rfl)
  refine (Exact.bind (fun _ => archiveMagic) (takeBytes_exact fits archiveMagic.length)
    (fun magic _ => marked magic) (fun _ _ _ same => not_not.mp same.1)).congr ?_ ?_
  · rintro ⟨files, exe⟩
    simp only [not_or, Nat.not_lt, ne_eq, not_true_eq_false, not_false_eq_true, true_and,
      and_true]
    constructor
    · rintro ⟨-, ⟨nonempty, count⟩, valid, -, normal⟩
      exact ⟨valid, fun empty => nonempty (by simp [empty]), count, normal⟩
    · rintro ⟨valid, nonempty, count, normal⟩
      have short := normal.short
      simp only [maxFileCount, maxPathBytes] at count short ⊢
      exact ⟨by omega, ⟨by simpa using nonempty, count⟩, valid, by omega, normal⟩
  · intro reader _
    simp [encodeReader]

end Readers

/-- A reader accepts a slice exactly if it is the encoding of what it returns
and that is well formed. -/
structure ValidReader (reader : BinaryReader) : Prop where
  files : ValidFiles [] reader.files
  nonempty : reader.files ≠ []
  count : reader.files.length ≤ maxFileCount
  exe : NormalPath reader.exe.value
  present : containsPath (reader.files.map (·.path)) reader.exe = true

theorem read_eq_ok {data : Slice} {reader : BinaryReader} :
    read data = .ok reader ↔ ValidReader reader ∧ data.bytes = encodeReader reader := by
  have fits : data.bytes.length < 2 ^ 64 := by
    have := data.length_lt
    omega
  have parts := readParts_exact fits
  have accepted : read data = .ok reader ↔ ∃ j, readArchive data.bytes 0 = .ok (reader, j) := by
    unfold read
    cases readArchive data.bytes 0 with
    | error e => simp [Except.map]
    | ok x => simp [Except.map, Prod.ext_iff]
  have unfolded : (∃ j, readArchive data.bytes 0 = .ok (reader, j)) ↔
      readParts data.bytes 0 = .ok (reader, data.bytes.length) ∧
        containsPath (reader.files.map (·.path)) reader.exe = true := by
    constructor
    · rintro ⟨j, run⟩
      obtain ⟨parsed, k, first, run1⟩ := bind_eq_ok.mp run
      obtain ⟨cursor, k1, here, run2⟩ := bind_eq_ok.mp run1
      cases here
      obtain ⟨⟨⟩, k2, check, run3⟩ := bind_eq_ok.mp run2
      obtain ⟨ended, rfl⟩ := failIf_eq_ok.mp check
      obtain ⟨⟨⟩, k3, check', run4⟩ := bind_eq_ok.mp run3
      obtain ⟨present, rfl⟩ := failIf_eq_ok.mp check'
      cases run4
      rw [← not_not.mp ended]
      exact ⟨first, by simpa using present⟩
    · rintro ⟨first, present⟩
      refine ⟨data.bytes.length, bind_eq_ok.mpr ⟨reader, _, first, ?_⟩⟩
      refine bind_eq_ok.mpr ⟨data.bytes.length, _, rfl, ?_⟩
      refine bind_eq_ok.mpr ⟨(), _, failIf_eq_ok.mpr ⟨by simp, rfl⟩, ?_⟩
      exact bind_eq_ok.mpr ⟨(), _, failIf_eq_ok.mpr ⟨by simp [present], rfl⟩, rfl⟩
  rw [accepted, unfolded, parts 0 reader _ (Nat.zero_le _)]
  constructor
  · rintro ⟨⟨⟨files, nonempty, count, exe⟩, stands, length⟩, present⟩
    refine ⟨⟨files, nonempty, count, exe, present⟩, ?_⟩
    rw [List.drop_zero] at stands
    exact (stands.eq_of_length (by omega)).symm
  · rintro ⟨⟨files, nonempty, count, exe, present⟩, same⟩
    rw [same]
    exact ⟨⟨⟨files, nonempty, count, exe⟩, by simp, by simp⟩, present⟩

/-- The entry that the writer would be given for a file. -/
def BinaryData.toEntry (file : BinaryData) : PackageEntry where
  path := file.path.value
  compressedData := file.compressed
  uncompressedSize := file.uncompressedLength
  sha256Digest := file.sha256Digest.1

theorem containsPath_iff {paths : List PathBuf} (normal : ∀ p ∈ paths, NormalPath p.value)
    {path : PathBuf} (h : NormalPath path.value) :
    containsPath paths path = true ↔ path ∈ paths := by
  simp only [containsPath, List.any_eq_true, decide_eq_true_eq]
  constructor
  · rintro ⟨p, mem, same⟩
    have : p.value = path.value := (normal p mem).components_inj h |>.mp same
    cases p
    cases path
    simp_all
  · intro mem
    exact ⟨path, mem, rfl⟩

theorem asUint_ofNat {n length : Nat} {label : String} (h : n < 256 ^ length) :
    asUint n length label = .ok (toBigEndian length n) := by
  have small : (0 : Int) ≤ n ∧ (n : Int) < 256 ^ length := ⟨by omega, by exact_mod_cast h⟩
  rw [asUint, if_pos small, Int.toNat_natCast]

/-- The lengths of a valid file fit their fields. -/
theorem ValidFile.fits {file : BinaryData} (h : ValidFile file) :
    (utf8 file.path.value).length < 256 ^ 4 ∧ file.compressed.length < 256 ^ 8 ∧
      file.uncompressedLength < 256 ^ 8 := by
  have short := h.path.short
  have compressed := h.compressed
  have uncompressed := h.uncompressed
  simp only [maxPathBytes, maxFileBytes] at short compressed uncompressed
  omega

theorem writeEntry_toEntry {file : BinaryData} (h : ValidFile file) :
    writeEntry file.toEntry = .ok (encodeFile file) := by
  obtain ⟨path, compressed, uncompressed⟩ := h.fits
  rw [writeEntry, BinaryData.toEntry, asUint_ofNat path, asUint_ofNat compressed,
    asUint_ofNat uncompressed]
  rfl

theorem writeEntries_toEntry {paths : List PathBuf} {files : List BinaryData}
    (h : ValidFiles paths files) :
    writeEntries (files.map BinaryData.toEntry) = .ok (files.flatMap encodeFile) := by
  induction files generalizing paths with
  | nil => rfl
  | cons file files ih =>
    obtain ⟨valid, -, rest⟩ := h
    rw [List.map_cons, List.flatMap_cons]
    exact except_bind_eq_ok.mpr
      ⟨_, writeEntry_toEntry valid, except_bind_eq_ok.mpr ⟨_, ih rest, rfl⟩⟩

/-- The check of one entry: it is the entry of a valid file. -/
theorem checkEntry_iff {entry : PackageEntry} :
    NormalPath entry.path ∧ ¬ (entry.uncompressedSize < 0 ∨
      maxFileBytes < entry.uncompressedSize ∨ maxFileBytes < entry.compressedData.length ∨
      entry.sha256Digest.length ≠ digestLength) ↔
    ∃ file, ValidFile file ∧ entry = file.toEntry := by
  constructor
  · rintro ⟨normal, bounds⟩
    simp only [not_or, not_not, Int.not_lt, Nat.not_lt] at bounds
    obtain ⟨positive, uncompressed, compressed, digest⟩ := bounds
    have size : (entry.uncompressedSize.toNat : Int) = entry.uncompressedSize :=
      Int.toNat_of_nonneg positive
    have limit : entry.uncompressedSize.toNat ≤ maxFileBytes := by omega
    refine ⟨⟨entry.compressedData, ⟨entry.sha256Digest, digest⟩, entry.uncompressedSize.toNat,
      ⟨entry.path⟩⟩, ⟨normal, compressed, limit⟩, ?_⟩
    rw [BinaryData.toEntry, size]
  · rintro ⟨file, ⟨normal, compressed, uncompressed⟩, rfl⟩
    refine ⟨normal, ?_⟩
    simp only [BinaryData.toEntry, file.sha256Digest.2, not_or]
    omega

theorem checkEntries_eq_ok {entries : List PackageEntry} {paths result : List String}
    (normal : ∀ p ∈ paths, NormalPath p) :
    checkEntries entries paths = .ok result ↔ ∃ files : List BinaryData,
      entries = files.map BinaryData.toEntry ∧ ValidFiles (paths.map PathBuf.mk) files ∧
      result = (files.map (·.path.value)).reverse ++ paths := by
  induction entries generalizing paths with
  | nil =>
    simp only [checkEntries, Except.ok.injEq]
    constructor
    · rintro rfl
      exact ⟨[], rfl, trivial, rfl⟩
    · rintro ⟨files, empty, -, rfl⟩
      simp [List.map_eq_nil_iff.mp empty.symm]
  | cons entry entries ih =>
    have known (path : String) (h : NormalPath path) :
        containsPath (paths.map PathBuf.mk) ⟨path⟩ = true ↔ path ∈ paths := by
      rw [containsPath_iff (by simpa using normal) h]
      simp
    rw [checkEntries, except_bind_eq_ok]
    constructor
    · rintro ⟨bytes, encoded, checked⟩
      obtain ⟨path, -⟩ := encodeArchivePath_eq_ok.mp encoded
      split at checked
      · cases checked
      · rename_i fresh
        split at checked
        · cases checked
        · rename_i bounds
          obtain ⟨file, valid, rfl⟩ := checkEntry_iff.mp ⟨path, bounds⟩
          obtain ⟨files, rfl, rest, rfl⟩ :=
            (ih (by simpa using ⟨path, normal⟩)).mp checked
          refine ⟨file :: files, rfl, ⟨valid, ?_, rest⟩, by simp [BinaryData.toEntry]⟩
          rw [← Bool.not_eq_true]
          exact fun seen => fresh ((known _ path).mp seen)
    · rintro ⟨files, same, valid, rfl⟩
      cases files with
      | nil => cases same
      | cons file files =>
        rw [List.map_cons, List.cons.injEq] at same
        obtain ⟨rfl, rfl⟩ := same
        obtain ⟨first, fresh, rest⟩ := valid
        obtain ⟨path, bounds⟩ := checkEntry_iff.mpr ⟨file, first, rfl⟩
        refine ⟨_, encodeArchivePath_eq_ok.mpr ⟨path, rfl⟩, ?_⟩
        rw [if_neg (by rwa [← known _ path, Bool.not_eq_true]), if_neg bounds,
          ih (by simpa using ⟨path, normal⟩)]
        exact ⟨files, rfl, rest, by simp [BinaryData.toEntry]⟩

theorem files_normal {paths : List PathBuf} {files : List BinaryData}
    (h : ValidFiles paths files) : ∀ p ∈ files.map (·.path), NormalPath p.value := by
  induction files generalizing paths with
  | nil => simp
  | cons file files ih =>
    obtain ⟨valid, -, rest⟩ := h
    simpa using ⟨valid.path, by simpa using ih rest⟩

theorem present_iff {reader : BinaryReader} (files : ValidFiles [] reader.files)
    (exe : NormalPath reader.exe.value) :
    containsPath (reader.files.map (·.path)) reader.exe = true ↔
      reader.exe.value ∈ (reader.files.map (·.path.value)).reverse := by
  rw [containsPath_iff (files_normal files) exe]
  simp only [List.mem_map, List.mem_reverse]
  constructor
  · rintro ⟨file, mem, same⟩
    exact ⟨file, mem, by rw [same]⟩
  · rintro ⟨file, mem, same⟩
    exact ⟨file, mem, congrArg PathBuf.mk same⟩

theorem writePackage_valid {reader : BinaryReader} (h : ValidReader reader) :
    writePackage (reader.files.map BinaryData.toEntry) reader.exe.value =
      .ok (encodeReader reader) := by
  have listed := (present_iff h.files h.exe).mp h.present
  have count : reader.files.length < 256 ^ 4 := by
    have := h.count
    simp only [maxFileCount] at this
    omega
  have length : (utf8 reader.exe.value).length < 256 ^ 4 := by
    have := h.exe.short
    simp only [maxPathBytes] at this
    omega
  refine except_bind_eq_ok.mpr ⟨_, encodeArchivePath_eq_ok.mpr ⟨h.exe, rfl⟩, ?_⟩
  rw [if_neg (by simpa using ⟨h.nonempty, h.count⟩)]
  refine except_bind_eq_ok.mpr
    ⟨_, (checkEntries_eq_ok (by simp)).mpr ⟨reader.files, rfl, h.files, rfl⟩, ?_⟩
  rw [if_neg (by simpa using listed)]
  refine except_bind_eq_ok.mpr ⟨_, asUint_ofNat (by rwa [List.length_map]), ?_⟩
  refine except_bind_eq_ok.mpr ⟨_, writeEntries_toEntry h.files, ?_⟩
  refine except_bind_eq_ok.mpr ⟨_, asUint_ofNat length, ?_⟩
  rw [List.length_map]
  rfl

theorem writePackage_eq_ok {entries : List PackageEntry} {executable : String} {bytes : Bytes} :
    writePackage entries executable = .ok bytes ↔ ∃ reader : BinaryReader, ValidReader reader ∧
      entries = reader.files.map BinaryData.toEntry ∧ executable = reader.exe.value ∧
      bytes = encodeReader reader := by
  constructor
  · intro written
    obtain ⟨_, encoded, written1⟩ := except_bind_eq_ok.mp written
    obtain ⟨exe, rfl⟩ := encodeArchivePath_eq_ok.mp encoded
    split at written1
    · cases written1
    · rename_i count
      obtain ⟨paths, checked, written2⟩ := except_bind_eq_ok.mp written1
      obtain ⟨files, rfl, valid, rfl⟩ := (checkEntries_eq_ok (by simp)).mp checked
      split at written2
      · cases written2
      · rename_i present
        simp only [not_or, List.map_eq_nil_iff, List.length_map, Nat.not_lt] at count
        have listed := @present_iff ⟨files, ⟨executable⟩⟩ valid exe
        have valid' : ValidReader ⟨files, ⟨executable⟩⟩ :=
          ⟨valid, count.1, count.2, exe, listed.mpr (by simpa using present)⟩
        have same := (writePackage_valid valid').symm.trans written
        exact ⟨_, valid', rfl, rfl, (Except.ok.inj same).symm⟩
  · rintro ⟨reader, valid, rfl, rfl, rfl⟩
    exact writePackage_valid valid

theorem encodeFile_length {file : BinaryData} (h : ValidFile file) :
    (encodeFile file).length ≤ 52 + maxPathBytes + maxFileBytes := by
  have path := h.path.short
  have compressed := h.compressed
  simp only [encodeFile, List.length_append, length_toBigEndian, file.sha256Digest.2,
    digestLength]
  omega

theorem encodeFiles_length {paths : List PathBuf} {files : List BinaryData}
    (h : ValidFiles paths files) :
    (files.flatMap encodeFile).length ≤ files.length * (52 + maxPathBytes + maxFileBytes) := by
  induction files generalizing paths with
  | nil => simp
  | cons file files ih =>
    obtain ⟨valid, -, rest⟩ := h
    have first := encodeFile_length valid
    have others := ih rest
    rw [List.flatMap_cons, List.length_append, List.length_cons, Nat.succ_mul]
    omega

theorem encodeReader_length {reader : BinaryReader} (h : ValidReader reader) :
    (encodeReader reader).length < 2 ^ 63 := by
  have files := encodeFiles_length h.files
  have count := Nat.mul_le_mul_right (52 + maxPathBytes + maxFileBytes) h.count
  have exe := h.exe.short
  simp only [encodeReader, List.length_append, length_toBigEndian, archiveMagic,
    List.length_cons, List.length_nil]
  simp only [maxFileCount, maxPathBytes, maxFileBytes] at files count exe
  omega

/-- **Writer and reader agree.** What `write_package` accepts and writes is a
slice that `BinaryReader::read` reads back, entry by entry and with the same
executable, and whatever `BinaryReader::read` accepts is what `write_package`
writes for the files and the executable read from it. -/
theorem writer_reader_agree (entries : List PackageEntry) (executable : String) :
    (∀ bytes, writePackage entries executable = .ok bytes →
      ∃ (h : bytes.length < 2 ^ 63) (reader : BinaryReader), read ⟨bytes, h⟩ = .ok reader ∧
        reader.files.map BinaryData.toEntry = entries ∧ reader.exe.value = executable) ∧
    ∀ (data : Slice) (reader : BinaryReader), read data = .ok reader →
      writePackage (reader.files.map BinaryData.toEntry) reader.exe.value = .ok data.bytes := by
  constructor
  · intro bytes written
    obtain ⟨reader, valid, rfl, rfl, rfl⟩ := writePackage_eq_ok.mp written
    exact ⟨encodeReader_length valid, reader, read_eq_ok.mpr ⟨valid, rfl⟩, rfl, rfl⟩
  · intro data reader accepted
    obtain ⟨valid, same⟩ := read_eq_ok.mp accepted
    rw [same]
    exact writePackage_valid valid

/-- An executable and a library in a directory. -/
def twoEntries : List PackageEntry :=
  [⟨"a", [7], 3, List.replicate 32 0⟩, ⟨"d/b", [8, 9], 5, List.replicate 32 1⟩]

theorem writer_reader_agree_two :
    ∃ bytes, writePackage twoEntries "a" = .ok bytes ∧
      ∃ (h : bytes.length < 2 ^ 63) (reader : BinaryReader), read ⟨bytes, h⟩ = .ok reader ∧
        reader.files.map BinaryData.toEntry = twoEntries ∧ reader.exe.value = "a" ∧
        writePackage (reader.files.map BinaryData.toEntry) reader.exe.value = .ok bytes := by
  have written : writePackage twoEntries "a" = .ok (archiveMagic ++ [0, 0, 0, 2] ++
      ([0, 0, 0, 1] ++ [0, 0, 0, 0, 0, 0, 0, 1] ++ [0, 0, 0, 0, 0, 0, 0, 3] ++
        List.replicate 32 0 ++ [97] ++ [7]) ++
      ([0, 0, 0, 3] ++ [0, 0, 0, 0, 0, 0, 0, 2] ++ [0, 0, 0, 0, 0, 0, 0, 5] ++
        List.replicate 32 1 ++ [100, 47, 98] ++ [8, 9]) ++ [0, 0, 0, 1] ++ [97]) := by
    decide +kernel
  obtain ⟨h, reader, accepted, files, exe⟩ := (writer_reader_agree twoEntries "a").1 _ written
  exact ⟨_, written, h, reader, accepted, files, exe,
    (writer_reader_agree twoEntries "a").2 _ reader accepted⟩

end CamelliaRemote.Portable
