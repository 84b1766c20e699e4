import ZimaControl.Backup.Contracts
import ZimaControl.Lib.JsNumber
import ZimaControl.Lib.Tar

/-!
# The archive of a bundle

`createTarStreamFromEntries` of `archive.ts`. The header of an entry gets the size recorded when the
entry was captured, or the one that `stat` reports; the bytes behind it are those that the file
holds when it is read; and the padding is computed from the size in the header. So if a file changed
its size in between, a reader looks for the next header in the wrong place. A path that does not fit
into the header is cut off, and backslashes in it become slashes.

The archive gives back what was read if the sizes agree and the header holds the path
(`archive_read_iff`).
-/

namespace ZimaControl

open List

/-- `ArchiveFileEntry`, with all its fields. -/
structure TarFileEntry where
  diskPath : JsString
  archiveRelativePath : JsString
  sizeBytes : Option ℕ
  mode : Option ℕ
  mtime : Option ℤ

/-- What `stat` reports about a file. -/
structure FileStat where
  size : ℕ
  mode : ℕ
  mtime : ℤ

/-- An entry as it is met: what `stat` reports, and what the file then holds. -/
structure TarReading where
  entry : TarFileEntry
  fileStat : Except BackupFailure FileStat
  content : Except BackupFailure (List Byte)

/-- `size`, from the entry or from `stat`. -/
def TarFileEntry.size (entry : TarFileEntry) (fileStat : FileStat) : ℕ :=
  match entry.sizeBytes with
  | some sizeBytes => (JsNumber.ofNat sizeBytes).toNat
  | none => fileStat.size

/-- `header.encode()` of an entry. -/
def TarFileEntry.header (codec : Tar.Codec) (entry : TarFileEntry) (fileStat : FileStat) :
    Option (List Byte) :=
  codec.encode (slashes entry.archiveRelativePath) (entry.size fileStat)
    (entry.mode.getD fileStat.mode) (entry.mtime.getD fileStat.mtime)

/-- `createTarStreamFromEntries`, with the bytes of all chunks. -/
def createTarStreamFromEntries (codec : Tar.Codec) :
    List TarReading → Except BackupFailure (List Byte)
  | [] => .ok (Tar.zeros 1024)
  | reading :: rest =>
    match reading.fileStat with
    | .error e => .error e
    | .ok fileStat =>
      match reading.entry.header codec fileStat with
      | none => .error ⟨js "Failed to encode tar header for " ++ reading.entry.archiveRelativePath,
          none, false⟩
      | some block =>
        match reading.content with
        | .error e => .error e
        | .ok content =>
          match createTarStreamFromEntries codec rest with
          | .error e => .error e
          | .ok others =>
            .ok (block ++ (content ++ (Tar.padding (reading.entry.size fileStat) ++ others)))

namespace TarReading

/-- The size in the header. -/
def size (reading : TarReading) : ℕ :=
  match reading.fileStat with
  | .ok fileStat => reading.entry.size fileStat
  | .error _ => 0

/-- The bytes that were read. -/
def bytes (reading : TarReading) : List Byte :=
  match reading.content with
  | .ok content => content
  | .error _ => []

/-- The entry as a reader of the archive should find it. -/
def member (reading : TarReading) : JsString × List Byte :=
  (reading.entry.archiveRelativePath, reading.bytes)

/-- The header has the number of bytes and gives the path back. -/
def Intact (codec : Tar.Codec) (reading : TarReading) : Prop :=
  reading.size = reading.bytes.length ∧
    codec.readPath (slashes reading.entry.archiveRelativePath) = reading.entry.archiveRelativePath

end TarReading

variable {codec : Tar.Codec} {reading : TarReading} {readings : List TarReading} {bytes : List Byte}

/-- The archive of a list: its first entry, and the archive of the others. -/
theorem createTarStream_cons (h : createTarStreamFromEntries codec (reading :: readings) = .ok bytes) :
    ∃ block mode mtime others,
      codec.encode (slashes reading.entry.archiveRelativePath) reading.size mode mtime = some block ∧
      createTarStreamFromEntries codec readings = .ok others ∧
      bytes = block ++ (reading.bytes ++ (Tar.padding reading.size ++ others)) := by
  rw [createTarStreamFromEntries] at h
  unfold TarReading.size TarReading.bytes
  cases hstat : reading.fileStat with
  | error e =>
    rw [hstat] at h
    cases h
  | ok fileStat =>
    rw [hstat] at h
    dsimp only at h ⊢
    cases hblock : reading.entry.header codec fileStat with
    | none =>
      rw [hblock] at h
      cases h
    | some block =>
      rw [hblock] at h
      cases hcontent : reading.content with
      | error e =>
        rw [hcontent] at h
        cases h
      | ok content =>
        rw [hcontent] at h
        cases hothers : createTarStreamFromEntries codec readings with
        | error e =>
          rw [hothers] at h
          cases h
        | ok others =>
          rw [hothers] at h
          cases h
          exact ⟨block, _, _, others, hblock, rfl, rfl⟩

/-- An archive whose entries are intact is read back. -/
theorem readMembers_of_intact (hintact : ∀ reading ∈ readings, reading.Intact codec)
    (hsizes : ∀ reading ∈ readings, reading.size < codec.sizeLimit) (fuel : ℕ)
    (h : createTarStreamFromEntries codec readings = .ok bytes) :
    Tar.readMembers codec (readings.length + fuel + 1) bytes =
        some (readings.map TarReading.member) ∧
      bytes.length % 512 = 0 ∧ 512 * readings.length + 1024 ≤ bytes.length := by
  induction readings generalizing bytes with
  | nil =>
    cases h
    have hlength : (Tar.zeros 1024).length = 1024 := length_replicate
    exact ⟨Tar.readMembers_end _, by omega, by simp [hlength]⟩
  | cons reading readings ih =>
    obtain ⟨block, mode, mtime, others, hblock, hothers, rfl⟩ := createTarStream_cons h
    obtain ⟨⟨hsize, hpath⟩, hrest⟩ := forall_mem_cons.mp hintact
    obtain ⟨hlimit, hlimits⟩ := forall_mem_cons.mp hsizes
    obtain ⟨hread, hmod, hlong⟩ := ih hrest hlimits hothers
    have hblockLength := codec.length_encode _ _ _ _ _ hblock
    have hwhole := Tar.size_add_padding_mod reading.size
    have hlength : (reading.bytes ++ (Tar.padding reading.size ++ others)).length =
        reading.size + (Tar.padding reading.size).length + others.length := by
      rw [length_append, length_append, hsize]
      omega
    refine ⟨?_, ?_, ?_⟩
    · -- The header says how long the bytes and the padding are, so the reader finds the others.
      have hbody : (reading.bytes ++ (Tar.padding reading.size ++ others)).take reading.size =
          reading.bytes := take_left' hsize.symm
      have hnext : (reading.bytes ++ (Tar.padding reading.size ++ others)).drop
          (reading.size + (Tar.padding reading.size).length) = others := by
        rw [← append_assoc]
        exact drop_left' (by rw [length_append, hsize])
      have hfuel : (reading :: readings).length + fuel + 1 = readings.length + fuel + 1 + 1 := by
        rw [length_cons]
        omega
      rw [hfuel, Tar.readMembers_encode hblock hlimit, if_neg (by rw [hlength]; omega), hbody, hnext,
        hread, hpath, Option.map_some, map_cons]
      rfl
    · rw [length_append, hblockLength, hlength]
      omega
    · rw [length_append, hblockLength, hlength, length_cons]
      omega

/-- An archive that is read back has intact entries. -/
theorem intact_of_readMembers (hsizes : ∀ reading ∈ readings, reading.size < codec.sizeLimit)
    {fuel : ℕ} (h : createTarStreamFromEntries codec readings = .ok bytes)
    (hread : Tar.readMembers codec fuel bytes = some (readings.map TarReading.member)) :
    ∀ reading ∈ readings, reading.Intact codec := by
  induction readings generalizing bytes fuel with
  | nil => exact fun _ hmem => absurd hmem not_mem_nil
  | cons reading readings ih =>
    obtain ⟨block, mode, mtime, others, hblock, hothers, rfl⟩ := createTarStream_cons h
    obtain ⟨hlimit, hlimits⟩ := forall_mem_cons.mp hsizes
    cases fuel with
    | zero => cases hread
    | succ fuel =>
      rw [Tar.readMembers_encode hblock hlimit] at hread
      split_ifs at hread with hshort
      obtain ⟨members, hmembers, hcons⟩ := Option.map_eq_some_iff.mp hread
      rw [map_cons] at hcons
      obtain ⟨hfirst, rfl⟩ := cons_eq_cons.mp hcons
      obtain ⟨hpath, hbytes⟩ := Prod.mk.inj hfirst
      -- The reader takes as many bytes as the header says.
      have hsize : reading.size = reading.bytes.length := by
        rw [← hbytes, length_take]
        omega
      have hnext : (reading.bytes ++ (Tar.padding reading.size ++ others)).drop
          (reading.size + (Tar.padding reading.size).length) = others := by
        rw [← append_assoc]
        exact drop_left' (by rw [length_append, hsize])
      rw [hnext] at hmembers
      exact forall_mem_cons.mpr ⟨⟨hsize, hpath⟩, ih hlimits hothers hmembers⟩

/-- If the archive is written, it is a sequence of whole blocks from which a reader gets each entry
in order, with its path and the bytes that were read, exactly if for each entry the size in the
header is the number of bytes read and the header gives the path back. -/
theorem archive_read_iff (codec : Tar.Codec) (readings : List TarReading)
    (hsizes : ∀ reading ∈ readings, reading.size < codec.sizeLimit) {bytes : List Byte}
    (h : createTarStreamFromEntries codec readings = .ok bytes) :
    (bytes.length % 512 = 0 ∧ Tar.read codec bytes = some (readings.map TarReading.member)) ↔
      ∀ reading ∈ readings, reading.Intact codec := by
  constructor
  · rintro ⟨-, hread⟩
    exact intact_of_readMembers hsizes h hread
  intro hintact
  have hlong := (readMembers_of_intact hintact hsizes 0 h).2.2
  obtain ⟨fuel, hfuel⟩ : ∃ fuel, bytes.length / 512 = readings.length + fuel + 1 :=
    ⟨bytes.length / 512 - readings.length - 1, by omega⟩
  obtain ⟨hread, hmod, -⟩ := readMembers_of_intact hintact hsizes fuel h
  refine ⟨hmod, ?_⟩
  unfold Tar.read
  rw [hfuel]
  exact hread

/-- An entry of three bytes with this content at the time it is read. -/
def threeBytes (name : String) (content : List Byte) : TarReading where
  entry := ⟨js "/data/app/" ++ js name, js "files/" ++ js name, some 3, none, none⟩
  fileStat := .ok ⟨content.length, 0, 0⟩
  content := .ok content

/-- Two entries that did not change are read back, one behind the other. -/
theorem archive_read_pair : ∃ bytes,
    createTarStreamFromEntries Tar.plain [threeBytes "a" [1, 2, 3], threeBytes "b" [4, 5, 6]] =
        .ok bytes ∧
      bytes.length % 512 = 0 ∧
      Tar.read Tar.plain bytes = some [(js "files/a", [1, 2, 3]), (js "files/b", [4, 5, 6])] := by
  refine ⟨_, rfl, (archive_read_iff Tar.plain [threeBytes "a" [1, 2, 3], threeBytes "b" [4, 5, 6]]
    (by decide +kernel) rfl).mpr ?_⟩
  refine forall_mem_cons.mpr ⟨⟨by decide +kernel, ?_⟩,
    forall_mem_singleton.mpr ⟨by decide +kernel, ?_⟩⟩ <;>
  exact Tar.plain.readPath_of_fits _ (by decide +kernel)

/-- A file that lost two bytes since it was captured spoils the archive, although paths and sizes
fit into their headers. -/
theorem shrunk_file_spoils_archive : ∃ readings bytes,
    createTarStreamFromEntries Tar.plain readings = .ok bytes ∧
      (∀ reading ∈ readings, reading.size < Tar.plain.sizeLimit ∧
        Tar.plain.pathFits reading.entry.archiveRelativePath = true) ∧
      Tar.read Tar.plain bytes ≠ some (readings.map TarReading.member) := by
  refine ⟨[threeBytes "a" [1], threeBytes "b" [1, 2, 3]], _, rfl, by decide +kernel, fun hread => ?_⟩
  have hintact := intact_of_readMembers (by decide +kernel) rfl hread (threeBytes "a" [1])
    mem_cons_self
  exact absurd hintact.1 (by decide +kernel)

end ZimaControl
