import AiStp.Projection.Agreement

/-!
# Canonical archives

`encode` and `decode` are inverse to each other, if the library reads the archives of the format: what
is admitted is written with no number cut, in as many bytes as its names and contents need, and read
back; and only what is written for the entries that it contains is read.
-/

set_option autoImplicit false

namespace AiStp.Projection

open Foundation Library Zip

theorem canonical_archive (platform : Platform) (libraries : Libraries) {limits : Limits}
    {reader : ArchiveReader} (hreader : ReadsStored reader)
    (hending : 22 ≤ limits.archiveBytes) :
    (∀ entries, validate platform libraries limits entries = true →
      ∃ payload, encode platform libraries limits entries = some payload ∧
        payload = archive (entries.map zipEntry) ∧ Untruncated (entries.map zipEntry) ∧
        payload.length = 22 + (entries.map fun entry ↦
          76 + 2 * (nameBytes entry.path entry.kind).length + entry.bytes.length).sum ∧
        decode platform limits libraries reader payload = some entries) ∧
    ∀ payload entries, decode platform limits libraries reader payload = some entries →
      encode platform libraries limits entries = some payload := by
  constructor
  · intro entries hvalid
    obtain ⟨hfits, hcount, hsize⟩ := Sample.fits_of_validate hvalid hending
    have huntruncated : Untruncated (entries.map zipEntry) :=
      untruncated_of_fits (List.forall_mem_map.mpr hfits) (by rw [List.length_map]; omega)
        (by omega)
    refine ⟨encodeBytes entries, if_pos hvalid, encodeBytes_eq entries, huntruncated, ?_,
      decode_encodeBytes (reads_of_stored hreader hending) hvalid hending⟩
    simp only [length_encodeBytes, length_nameBytes]
    rfl
  · intro payload entries hdecode
    simp only [decode, Option.bind_eq_bind, Option.bind_eq_some_iff, Option.guard_eq_some',
      Option.pure_def, Option.some.injEq] at hdecode
    obtain ⟨-, -, -, -, archive, -, -, -, decoded, -, -, hencoded, rfl⟩ := hdecode
    exact hencoded

/-- A directory and a file in it. -/
theorem canonical_archive_pair :
    let entries : List Entry := [⟨"bin", [], 0o755, .directory⟩, ⟨"bin/run", [1, 2], 0o644, .file⟩]
    ∃ payload, encode asciiPlatform Sample.libraries ⟨8, 16, 64, 512⟩ entries = some payload ∧
      payload.length = 22 + (76 + 2 * 4) + (76 + 2 * 7 + 2) ∧
      decode asciiPlatform ⟨8, 16, 64, 512⟩ Sample.libraries Sample.archiveReader payload =
        some entries := by
  intro entries
  have hvalid : validate asciiPlatform Sample.libraries ⟨8, 16, 64, 512⟩ entries = true := by
    decide +kernel
  obtain ⟨payload, hencoded, -, -, hlength, hdecoded⟩ := (canonical_archive asciiPlatform
    Sample.libraries Sample.archiveReader_stored (by decide)).1 entries hvalid
  exact ⟨payload, hencoded, hlength, hdecoded⟩

end AiStp.Projection
