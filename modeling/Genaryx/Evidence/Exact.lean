import Genaryx.Base.Items
import Genaryx.Evidence.Pack
import Mathlib.Data.List.Nodup

/-!
# A pack holds what its manifest says

An assembled pack has the manifest, the signature and every artifact with the digest and the size
that the manifest lists. Its names are ones that an unzip tool extracts, where no artifact is
called a dot or has a control character in its name, which is not checked.
-/

namespace Genaryx.Evidence

open Base Json Text

variable {Writer Archive : Type} {Z : ZipCrate Writer Archive}

/-! ## The check of the filenames -/

/-- A name that an unzip tool extracts inside its target directory. -/
structure Plain (name : Text) : Prop where
  ne_nil : name ≠ []
  no_separator : '/' ∉ name ∧ '\\' ∉ name
  no_dots : name ≠ ['.'] ∧ name ≠ ['.', '.']
  no_control : ∀ c ∈ name, Text.isControl c = false

/-- What is checked of a filename. -/
def Checked (name : Text) : Prop :=
  name ≠ [] ∧ '/' ∉ name ∧ '\\' ∉ name ∧ name ≠ ['.', '.'] ∧ name ≠ manifestName ∧
    name ≠ signatureName

/-- What is not checked of a filename. -/
def Unchecked (name : Text) : Prop := name = ['.'] ∨ ∃ c ∈ name, Text.isControl c = true

theorem plain_of_checked {name : Text} (h : Checked name) (hrest : ¬ Unchecked name) : Plain name where
  ne_nil := h.1
  no_separator := ⟨h.2.1, h.2.2.1⟩
  no_dots := ⟨fun hdot => hrest (.inl hdot), h.2.2.2.1⟩
  no_control c hc := Bool.eq_false_iff.mpr fun hcontrol => hrest (.inr ⟨c, hc, hcontrol⟩)

theorem Plain.not_unchecked {name : Text} (h : Plain name) : ¬ Unchecked name := by
  rintro (hdot | ⟨c, hc, hcontrol⟩)
  · exact h.no_dots.1 hdot
  · rw [h.no_control c hc] at hcontrol
    cases hcontrol

theorem validateFilename_eq_ok_iff {name : Text} :
    validateFilename name = .ok () ↔
      name ≠ [] ∧ '/' ∉ name ∧ '\\' ∉ name ∧ name ≠ ['.', '.'] := by
  rw [validateFilename]
  by_cases hsep : '/' ∈ name ∨ '\\' ∈ name
  · have hfound : (List.contains name '/' || List.contains name '\\') = true := by
      simpa only [Bool.or_eq_true, List.contains_iff_mem] using hsep
    rw [if_pos (by rw [Bool.or_assoc name.isEmpty, hfound]; simp)]
    refine ⟨nofun, fun ⟨_, hslash, hback, _⟩ => ?_⟩
    exact (hsep.elim hslash hback).elim
  · obtain ⟨hslash, hback⟩ := not_or.mp hsep
    -- without a separator there is one segment, the name
    have hsplit : (name.splitOnP fun c => c = '/' || c = '\\') = [name] :=
      List.splitOnP_eq_singleton fun c hc => by
        have hc : c ≠ '/' ∧ c ≠ '\\' := ⟨fun h => hslash (h ▸ hc), fun h => hback (h ▸ hc)⟩
        simp [hc]
    rw [hsplit]
    simp [hslash, hback]

theorem checkFilenames_cons (seen : List Text) (a : Artifact) (rest : List Artifact) :
    checkFilenames seen (a :: rest) = .ok () ↔
      (Checked a.filename ∧ a.filename ∉ seen) ∧
        checkFilenames (a.filename :: seen) rest = .ok () := by
  rw [checkFilenames]
  cases hvalid : validateFilename a.filename with
  | error e =>
      refine iff_of_false nofun fun ⟨⟨hchecked, _⟩, _⟩ => ?_
      obtain ⟨hne, hslash, hback, hdots, _⟩ := hchecked
      rw [validateFilename_eq_ok_iff.mpr ⟨hne, hslash, hback, hdots⟩] at hvalid
      cases hvalid
  | ok u =>
      change (if _ then _ else _) = _ ↔ _
      obtain ⟨hne, hslash, hback, hdots⟩ := validateFilename_eq_ok_iff.mp hvalid
      split
      · next hreserved =>
          rw [Bool.or_eq_true, decide_eq_true_eq, decide_eq_true_eq] at hreserved
          refine iff_of_false nofun fun ⟨⟨⟨_, _, _, _, hmanifest, hsignature⟩, _⟩, _⟩ => ?_
          exact hreserved.elim hmanifest hsignature
      · next hfree =>
          rw [Bool.or_eq_true, decide_eq_true_eq, decide_eq_true_eq, not_or] at hfree
          split
          · next hseen => exact iff_of_false nofun fun h => h.1.2 hseen
          · next hnew =>
              exact ⟨fun h => ⟨⟨⟨hne, hslash, hback, hdots, hfree.1, hfree.2⟩, hnew⟩, h⟩, And.right⟩

/-- The check passes just where every name is checked and none comes twice. -/
theorem checkFilenames_eq_ok_iff (seen : List Text) (artifacts : List Artifact) :
    checkFilenames seen artifacts = .ok () ↔
      (∀ a ∈ artifacts, Checked a.filename ∧ a.filename ∉ seen) ∧
        (artifacts.map Artifact.filename).Nodup := by
  induction artifacts generalizing seen with
  | nil => exact iff_of_true rfl ⟨nofun, List.nodup_nil⟩
  | cons a rest ih =>
      rw [checkFilenames_cons, ih, List.forall_mem_cons, List.map_cons, List.nodup_cons, List.mem_map]
      constructor
      · rintro ⟨ha, hrest, hnodup⟩
        refine ⟨⟨ha, fun b hb => ⟨(hrest b hb).1, fun h => (hrest b hb).2 (List.mem_cons_of_mem _ h)⟩⟩,
          ?_, hnodup⟩
        rintro ⟨b, hb, heq⟩
        exact (hrest b hb).2 (heq ▸ List.mem_cons_self)
      · rintro ⟨⟨ha, hrest⟩, hnew, hnodup⟩
        refine ⟨ha, fun b hb => ⟨(hrest b hb).1, fun h => ?_⟩, hnodup⟩
        rcases List.mem_cons.mp h with heq | hseen
        · exact hnew ⟨b, hb, heq⟩
        · exact (hrest b hb).2 hseen

/-! ## What is stored -/

theorem stored_addFile {w w' : Writer} {name : Text} {bytes : Bytes}
    (h : addFile Z w name bytes = .ok w') : Z.stored w' = Z.stored w ++ [(name, bytes)] := by
  obtain ⟨started, hstart, hwrite⟩ := bind_eq_ok h
  have hstored := Z.stored_startFile (mapError_eq_ok hstart)
  exact Z.stored_writeAll (mapError_eq_ok hwrite) hstored

variable (Z) in
/-- Some entries, one after another. -/
def addFiles (w : Writer) (files : List (Text × Bytes)) : Except EvidenceError Writer :=
  files.foldlM (fun w f => addFile Z w f.1 f.2) w

theorem stored_addFiles {w w' : Writer} {files : List (Text × Bytes)}
    (h : addFiles Z w files = .ok w') : Z.stored w' = Z.stored w ++ files := by
  induction files generalizing w with
  | nil =>
      cases h
      rw [List.append_nil]
  | cons f files ih =>
      obtain ⟨next, hnext, hrest⟩ := bind_eq_ok h
      rw [ih hrest, stored_addFile hnext, List.append_assoc, List.singleton_append]

variable (Z) in
/-- A whole archive of some entries. -/
def archiveOf (files : List (Text × Bytes)) : Except EvidenceError Archive := do
  let w ← addFiles Z Z.new files
  (Z.finish w).mapError .zip

theorem entries_archiveOf {files : List (Text × Bytes)} {archive : Archive}
    (h : archiveOf Z files = .ok archive) : Z.entries archive = files := by
  obtain ⟨w, hw, hfinish⟩ := bind_eq_ok h
  rw [Z.entries_finish (mapError_eq_ok hfinish), stored_addFiles hw, Z.stored_new, List.nil_append]

/-- The bytes of a signature. -/
def SignatureBlock.bytes (s : SignatureBlock) : Bytes := Utf8.encode (pretty Empty.elim 0 s.toJson)

/-- The entries of a pack. -/
def filesOf (manifestBytes : Bytes) (signature : Option SignatureBlock) (artifacts : List Artifact) :
    List (Text × Bytes) :=
  (manifestName, manifestBytes) ::
    (signature.toList.map fun s => (signatureName, s.bytes)) ++
      artifacts.map fun a => (a.filename, a.bytes)

/-- A pack is the archive of its entries, once the names are checked. -/
theorem assembleZip_eq (manifestBytes : Bytes) (signature : Option SignatureBlock)
    (artifacts : List Artifact) :
    assembleZip Z manifestBytes signature artifacts =
      (checkFilenames [] artifacts >>= fun _ =>
        archiveOf Z (filesOf manifestBytes signature artifacts)) := by
  refine bind_congr fun _ => ?_
  rw [archiveOf, addFiles, filesOf, List.cons_append, List.foldlM_cons, bind_assoc]
  refine bind_congr fun w => ?_
  have hartifacts : ∀ w, artifacts.foldlM (fun w a => addFile Z w a.filename a.bytes) w =
      addFiles Z w (artifacts.map fun a => (a.filename, a.bytes)) := fun w => by
    rw [addFiles, List.foldlM_map]
  simp only [hartifacts]
  cases signature with
  | none => rfl
  | some sig => exact (bind_assoc (addFile Z w signatureName sig.bytes) _ _).symm

theorem assembleZip_eq_ok_iff {manifestBytes : Bytes} {signature : Option SignatureBlock}
    {artifacts : List Artifact} {archive : Archive} :
    assembleZip Z manifestBytes signature artifacts = .ok archive ↔
      ((∀ a ∈ artifacts, Checked a.filename) ∧ (artifacts.map Artifact.filename).Nodup) ∧
        archiveOf Z (filesOf manifestBytes signature artifacts) = .ok archive := by
  have hchecks : checkFilenames [] artifacts = .ok () ↔
      (∀ a ∈ artifacts, Checked a.filename) ∧ (artifacts.map Artifact.filename).Nodup := by
    simp only [checkFilenames_eq_ok_iff, List.not_mem_nil, not_false_eq_true, and_true]
  rw [assembleZip_eq, ← hchecks]
  cases checkFilenames [] artifacts with
  | error e => exact iff_of_false nofun fun h => nomatch h.1
  | ok u => exact ⟨fun h => ⟨rfl, h⟩, And.right⟩

/-! ## Packs -/

/-- A pack to be made, with the crates that it is made with. -/
structure Packing (Writer Archive : Type) where
  zip : ZipCrate Writer Archive
  sha256 : Bytes → Bytes
  artifacts : List Artifact
  missing : List MissingSource
  generatedAt : Text
  operator : Text
  org : Text
  signature : Option SignatureBlock

namespace Packing

variable (p : Packing Writer Archive)

def manifest : EvidenceManifest :=
  .build p.sha256 p.artifacts p.missing p.generatedAt p.operator p.org

/-- The pack of a manifest that was built from the same artifacts. -/
def assemble : Except EvidenceError Archive := do
  let manifestBytes ← p.manifest.canonicalBytes
  assembleZip p.zip manifestBytes p.signature p.artifacts

/-- The names in an archive. -/
def names (archive : Archive) : List Text := (p.zip.entries archive).map Prod.fst

/-- An archive holds exactly what its manifest says. -/
structure Exact (archive : Archive) : Prop where
  names_eq : p.names archive =
    manifestName :: (p.signature.toList.map fun _ => signatureName) ++
      p.artifacts.map Artifact.filename
  distinct : (p.names archive).Nodup
  plain : ∀ name ∈ p.names archive, Plain name
  manifest_stored : ∀ bytes, p.manifest.canonicalBytes = .ok bytes →
    (manifestName, bytes) ∈ p.zip.entries archive
  /-- What the manifest lists is in the archive. -/
  listed : ∀ m ∈ p.manifest.artifacts, ∃ bytes, (m.filename, bytes) ∈ p.zip.entries archive ∧
    m.sha256 = sha256Hex p.sha256 bytes ∧ m.sizeBytes.toNat = bytes.length
  /-- The manifest lists every artifact in the archive. -/
  held : ∀ entry ∈ p.zip.entries archive, entry.1 ≠ manifestName → entry.1 ≠ signatureName →
    ∃ m ∈ p.manifest.artifacts, m.filename = entry.1 ∧
      m.sha256 = sha256Hex p.sha256 entry.2 ∧ m.sizeBytes.toNat = entry.2.length

/-- The entries that the pack has to hold. -/
def files : List (Text × Bytes) :=
  filesOf (Utf8.encode (pretty Empty.elim 0 p.manifest.toJson)) p.signature p.artifacts

/-- A pack is refused for a name, or not written by the zip crate. -/
def Refused : Prop :=
  (∃ a ∈ p.artifacts, ¬ Checked a.filename) ∨ ¬ (p.artifacts.map Artifact.filename).Nodup ∨
    ∃ e, archiveOf p.zip p.files = .error e

variable {p}

theorem assemble_eq_ok_iff {archive : Archive} :
    p.assemble = .ok archive ↔
      ((∀ a ∈ p.artifacts, Checked a.filename) ∧ (p.artifacts.map Artifact.filename).Nodup) ∧
        archiveOf p.zip p.files = .ok archive :=
  assembleZip_eq_ok_iff

theorem refused_or_assemble : p.Refused ∨ ∃ archive, p.assemble = .ok archive := by
  by_cases hchecked : ∀ a ∈ p.artifacts, Checked a.filename
  · by_cases hnodup : (p.artifacts.map Artifact.filename).Nodup
    · cases harchive : archiveOf p.zip p.files with
      | error e => exact .inl (.inr (.inr ⟨e, harchive⟩))
      | ok archive => exact .inr ⟨archive, assemble_eq_ok_iff.mpr ⟨⟨hchecked, hnodup⟩, harchive⟩⟩
    · exact .inl (.inr (.inl hnodup))
  · obtain ⟨a, ha⟩ := not_forall.mp hchecked
    exact .inl (.inl ⟨a, Classical.not_imp.mp ha⟩)

theorem not_assemble_of_refused (h : p.Refused) {archive : Archive} : p.assemble ≠ .ok archive := by
  intro hassemble
  obtain ⟨⟨hchecked, hnodup⟩, harchive⟩ := assemble_eq_ok_iff.mp hassemble
  rcases h with ⟨a, ha, hnot⟩ | hdup | ⟨e, he⟩
  · exact hnot (hchecked a ha)
  · exact hdup hnodup
  · rw [harchive] at he
    cases he

/-- The entries of an assembled pack. -/
theorem entries_of_assemble {archive : Archive} (h : p.assemble = .ok archive) :
    p.zip.entries archive = p.files :=
  entries_archiveOf (assemble_eq_ok_iff.mp h).2

theorem names_of_assemble {archive : Archive} (h : p.assemble = .ok archive) :
    p.names archive =
      manifestName :: (p.signature.toList.map fun _ => signatureName) ++
        p.artifacts.map Artifact.filename := by
  rw [names, entries_of_assemble h, files, filesOf, List.map_append, List.map_cons, List.map_map,
    List.map_map]
  rfl

theorem plain_own : Plain manifestName ∧ Plain signatureName := by
  constructor <;> constructor <;> decide

theorem distinct_of_assemble {archive : Archive} (h : p.assemble = .ok archive) :
    (p.names archive).Nodup := by
  obtain ⟨⟨hchecked, hnodup⟩, -⟩ := assemble_eq_ok_iff.mp h
  have hown : ∀ name ∈ p.artifacts.map Artifact.filename, name ≠ manifestName ∧ name ≠ signatureName := by
    intro name hname
    obtain ⟨a, ha, rfl⟩ := List.mem_map.mp hname
    exact (hchecked a ha).2.2.2.2
  have hmanifest : manifestName ∉ p.artifacts.map Artifact.filename := fun h => (hown _ h).1 rfl
  have hsignature : signatureName ∉ p.artifacts.map Artifact.filename := fun h => (hown _ h).2 rfl
  rw [names_of_assemble h]
  cases p.signature with
  | none => exact List.nodup_cons.mpr ⟨hmanifest, hnodup⟩
  | some s =>
      refine List.nodup_cons.mpr ⟨?_, List.nodup_cons.mpr ⟨hsignature, hnodup⟩⟩
      have hne : manifestName ≠ signatureName := by decide
      exact List.not_mem_cons_of_ne_of_not_mem hne hmanifest

theorem listed_of_assemble {archive : Archive} (h : p.assemble = .ok archive) :
    ∀ m ∈ p.manifest.artifacts, ∃ bytes, (m.filename, bytes) ∈ p.zip.entries archive ∧
      m.sha256 = sha256Hex p.sha256 bytes ∧ m.sizeBytes.toNat = bytes.length := by
  intro m hm
  obtain ⟨a, ha, rfl⟩ := List.mem_map.mp hm
  refine ⟨a.bytes, ?_, rfl, ?_⟩
  · rw [entries_of_assemble h, files, filesOf]
    exact List.mem_append_right _ (List.mem_map_of_mem ha)
  · exact UInt64.toNat_ofNat_of_lt' (lt_trans a.bytes_fit (by decide))

theorem held_of_assemble {archive : Archive} (h : p.assemble = .ok archive)
    {entry : Text × Bytes} (hentry : entry ∈ p.zip.entries archive)
    (hmanifest : entry.1 ≠ manifestName) (hsignature : entry.1 ≠ signatureName) :
    ∃ m ∈ p.manifest.artifacts, m.filename = entry.1 ∧
      m.sha256 = sha256Hex p.sha256 entry.2 ∧ m.sizeBytes.toNat = entry.2.length := by
  rw [entries_of_assemble h, files, filesOf] at hentry
  rcases List.mem_append.mp hentry with hown | hartifact
  · rcases List.mem_cons.mp hown with rfl | hsigned
    · exact absurd rfl hmanifest
    · obtain ⟨_, _, rfl⟩ := List.mem_map.mp hsigned
      exact absurd rfl hsignature
  · obtain ⟨a, ha, rfl⟩ := List.mem_map.mp hartifact
    exact ⟨_, List.mem_map_of_mem ha, rfl, rfl,
      UInt64.toNat_ofNat_of_lt' (lt_trans a.bytes_fit (by decide))⟩

/-- A pack holds exactly what its manifest says just where it is refused, or no filename is a dot or
has a control character. -/
theorem exact_iff (p : Packing Writer Archive) :
    (∀ archive, p.assemble = .ok archive → p.Exact archive) ↔
      p.Refused ∨ ∀ a ∈ p.artifacts, ¬ Unchecked a.filename := by
  constructor
  · intro hexact
    rcases refused_or_assemble (p := p) with hrefused | ⟨archive, h⟩
    · exact .inl hrefused
    · refine .inr fun a ha => ((hexact archive h).plain a.filename ?_).not_unchecked
      rw [names_of_assemble h]
      exact List.mem_append_right _ (List.mem_map_of_mem ha)
  · rintro hwhen archive h
    rcases hwhen with hrefused | hnames
    · exact absurd h (not_assemble_of_refused hrefused)
    · refine ⟨names_of_assemble h, distinct_of_assemble h, ?_, ?_, listed_of_assemble h,
        fun _ => held_of_assemble h⟩
      · rw [names_of_assemble h]
        intro name hname
        rcases List.mem_append.mp hname with hown | hartifact
        · rcases List.mem_cons.mp hown with rfl | hsignature
          · exact plain_own.1
          · obtain ⟨_, _, rfl⟩ := List.mem_map.mp hsignature
            exact plain_own.2
        · obtain ⟨a, ha, rfl⟩ := List.mem_map.mp hartifact
          exact plain_of_checked ((assemble_eq_ok_iff.mp h).1.1 a ha) (hnames a ha)
      · intro bytes hbytes
        cases hbytes
        rw [entries_of_assemble h, files, filesOf]
        exact List.mem_append_left _ List.mem_cons_self

end Packing

section Sample

/-- A zip crate whose archives are the lists of their entries. -/
def listedZip : ZipCrate (List (Text × Bytes)) (List (Text × Bytes)) where
  new := []
  startFile w name := .ok (w ++ [(name, [])])
  writeAll w bytes :=
    .ok (w.dropLast ++ (w.getLast?.toList.map fun entry => (entry.1, entry.2 ++ bytes)))
  finish := .ok
  stored := id
  entries := id
  stored_new := rfl
  stored_startFile h := by
    cases h
    rfl
  stored_writeAll h hstored := by
    cases h
    simp only [id] at hstored
    rw [hstored]
    simp
  entries_finish h := by
    cases h
    rfl

/-- A pack with one artifact, which is called a dot. -/
def dotted : Packing (List (Text × Bytes)) (List (Text × Bytes)) where
  zip := listedZip
  sha256 := id
  artifacts :=
    [{ name := "Cloud compliance evidence".toList
       filename := ['.']
       contentType := "application/json".toList
       source := "tokenfuse cloud".toList
       toolVersion := none
       verifyStatus := none
       bytes := []
       bytes_fit := by decide }]
  missing := []
  generatedAt := "2026-09-21T10:00:00Z".toList
  operator := "op".toList
  org := "acme".toList
  signature := none

/-- An artifact that is called a dot is packed under this name. -/
theorem dotted_not_exact : ¬ ∀ archive, dotted.assemble = .ok archive → dotted.Exact archive := by
  intro hexact
  have hassemble : dotted.assemble = .ok dotted.files := rfl
  exact (hexact _ hassemble).plain ['.'] (List.mem_cons_of_mem _ List.mem_cons_self) |>.no_dots.1 rfl

end Sample

end Genaryx.Evidence
