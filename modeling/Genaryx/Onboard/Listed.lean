import Genaryx.Base.Letters
import Genaryx.Onboard.Accepted
import Genaryx.Onboard.Distinct
import Genaryx.Onboard.Staged

/-!
# Staged passports as they are listed

A passport that is generated is read back with what was declared in it, so once it has been
staged it is listed so. It is staged unless the directory is given with a `..` in its path.
-/

namespace Genaryx.Onboard

open Base Json
open Genaryx.Path (Component)

variable {F : Type}

section Flat

/-- A value without numbers that nests so deep at most. -/
structure Flat (d : Nat) (v : Value F) : Prop where
  integer : v.AllNumbers Number.IsInteger
  depth_le : v.depth ≤ d

theorem flat_string (d : Nat) (t : Text) : Flat d (.string t : Value F) := ⟨trivial, Nat.zero_le d⟩

theorem Flat.array {d : Nat} {items : List (Value F)} (h : ∀ v ∈ items, Flat d v) :
    Flat (d + 1) (.array items) := by
  induction items with
  | nil => exact ⟨trivial, Nat.succ_le_succ (Nat.zero_le d)⟩
  | cons v vs ih =>
      obtain ⟨hv, hvs⟩ := List.forall_mem_cons.mp h
      have hrest := ih hvs
      exact ⟨⟨hv.integer, hrest.integer⟩, Nat.succ_le_succ (max_le hv.depth_le
        (Nat.le_of_succ_le_succ hrest.depth_le))⟩

theorem Flat.object {d : Nat} {members : List (Text × Value F)} (h : ∀ m ∈ members, Flat d m.2) :
    Flat (d + 1) (.object members) :=
  ⟨Value.allMembers_iff.mpr fun m hm => (h m hm).integer,
    Nat.succ_le_succ (Value.membersDepth_le_iff.mpr fun m hm => (h m hm).depth_le)⟩

theorem forall_optionalMember {p : Value F → Prop} {name : Text} {value : Option (Value F)}
    (h : ∀ v, value = some v → p v) : ∀ m ∈ optionalMember name value, p m.2 := by
  intro m hm
  cases value with
  | none => exact absurd hm List.not_mem_nil
  | some v =>
      rw [List.mem_singleton.mp hm]
      exact h v rfl

theorem forall_listMember {p : Value F → Prop} {name : Text} {items : List (Value F)}
    (h : p (.array items)) : ∀ m ∈ listMember name items, p m.2 := by
  intro m hm
  rw [listMember] at hm
  split at hm
  · exact absurd hm List.not_mem_nil
  · rw [List.mem_singleton.mp hm]
    exact h

theorem flat_fsScopeJson (s : ValidatedFsScope) : Flat 1 (fsScopeJson s : Value F) :=
  .object (List.forall_mem_cons.mpr ⟨flat_string 0 s.path,
    List.forall_mem_singleton.mpr (flat_string 0 s.mode)⟩)

theorem flat_modelJson (m : ValidatedModelDecl) : Flat 1 (modelJson m : Value F) := by
  have hfield : ∀ (name : Text) (field : Option Text), ∀ p ∈ optionalMember (F := F) name
      (field.map .string), Flat 0 p.2 := fun name field =>
    forall_optionalMember fun v hv => by
      obtain ⟨t, -, rfl⟩ := Option.map_eq_some_iff.mp hv
      exact flat_string 0 t
  exact .object (List.forall_mem_cons.mpr ⟨flat_string 0 m.provider,
    List.forall_mem_append.mpr ⟨hfield _ _, hfield _ _⟩⟩)

theorem flat_passport (S : Surroundings F) (r : OnboardGenerateRequest F) (c : Checked) :
    Flat 3 (.object (passportMembers S r c)) := by
  have hfield : ∀ (name : Text) (field : Option Text), ∀ p ∈ optionalMember (F := F) name
      (field.map .string), Flat 2 p.2 := fun name field =>
    forall_optionalMember fun v hv => by
      obtain ⟨t, -, rfl⟩ := Option.map_eq_some_iff.mp hv
      exact flat_string 2 t
  refine .object ?_
  simp only [passportMembers, List.forall_mem_append]
  refine ⟨⟨⟨⟨⟨⟨?_, hfield _ _⟩, hfield _ _⟩, ?_⟩, ?_⟩, ?_⟩, ?_⟩
  · exact List.forall_mem_cons.mpr ⟨flat_string 2 _, List.forall_mem_cons.mpr ⟨flat_string 2 _,
      List.forall_mem_singleton.mpr (flat_string 2 _)⟩⟩
  · refine forall_optionalMember fun v hv => ?_
    obtain ⟨method, -, rfl⟩ := Option.map_eq_some_iff.mp hv
    exact .object (List.forall_mem_singleton.mpr (flat_string 1 method))
  · exact forall_listMember (.array (List.forall_mem_map.mpr fun s _ => flat_fsScopeJson s))
  · exact forall_listMember (.array (List.forall_mem_map.mpr fun m _ => flat_modelJson m))
  · exact List.forall_mem_singleton.mpr (flat_string 2 _)

end Flat

section Members

variable (S : Surroundings F) (r : OnboardGenerateRequest F) (c : Checked)

theorem map_fst_optionalMember (name : Text) (value : Option (Value F)) :
    ((optionalMember name value).map Prod.fst).Sublist [name] := by
  cases value with
  | none => exact List.nil_sublist _
  | some v => exact .refl _

theorem map_fst_listMember (name : Text) (items : List (Value F)) :
    ((listMember name items).map Prod.fst).Sublist [name] := by
  rw [listMember]
  split
  · exact List.nil_sublist _
  · exact .refl _

/-- The names of a passport's members, in their order. -/
def passportNames : List Text :=
  ["schema".toList, "id".toList, "owner".toList] ++ ["display_name".toList] ++ ["runtime".toList] ++
    ["attestation".toList] ++ ["filesystem".toList] ++ ["models".toList] ++ ["created_at".toList]

/-- A passport names no member twice. -/
theorem nodup_passportMembers : ((passportMembers S r c).map Prod.fst).Nodup := by
  have hnames : ((passportMembers S r c).map Prod.fst).Sublist passportNames := by
    simp only [passportMembers, List.map_append]
    refine .append (.append (.append (.append (.append (.append (.refl _) ?_) ?_) ?_) ?_) ?_)
      (.refl _)
    · exact map_fst_optionalMember _ _
    · exact map_fst_optionalMember _ _
    · exact map_fst_optionalMember _ _
    · exact map_fst_listMember _ _
    · exact map_fst_listMember _ _
  exact hnames.nodup (by decide)

theorem lookup_optionalMember (key name : Text) (value : Option (Value F)) :
    (optionalMember name value).lookup key = if key = name then value else none := by
  cases value with
  | none => exact (ite_self _).symm
  | some v =>
      by_cases h : key = name
      · simp [optionalMember, h]
      · rw [if_neg h, optionalMember, Option.map_some, Option.toList_some, List.lookup_cons,
          beq_eq_false_iff_ne.mpr h]
        rfl

/-- A list that is left out where it is empty. -/
def filled (items : List (Value F)) : Option (Value F) :=
  if items.isEmpty then none else some (.array items)

theorem listMember_eq (name : Text) (items : List (Value F)) :
    listMember name items = optionalMember name (filled items) := by
  rw [listMember, filled]
  split <;> rfl

theorem lookup_schema : (passportMembers S r c).lookup "schema".toList =
    some (.string passportSchema) := rfl

theorem lookup_id : (passportMembers S r c).lookup "id".toList = some (.string r.agentId) := rfl

theorem lookup_owner : (passportMembers S r c).lookup "owner".toList =
    some (.string r.ownerText) := rfl

theorem lookup_filesystem : (passportMembers S r c).lookup "filesystem".toList =
    filled (c.filesystem.map fsScopeJson) := by
  have hhead : [("schema".toList, .string passportSchema), ("id".toList, .string r.agentId),
      ("owner".toList, (.string r.ownerText : Value F))].lookup "filesystem".toList = none := rfl
  have hlast : [("created_at".toList, (.string S.nowRfc3339 : Value F))].lookup
      "filesystem".toList = none := rfl
  simp only [passportMembers, List.lookup_append, listMember_eq, lookup_optionalMember, hhead, hlast,
    if_true]
  rw [if_neg (by decide), if_neg (by decide), if_neg (by decide), if_neg (by decide)]
  simp only [Option.none_or, Option.or_none]

theorem lookup_models : (passportMembers S r c).lookup "models".toList =
    filled (c.models.map modelJson) := by
  have hhead : [("schema".toList, .string passportSchema), ("id".toList, .string r.agentId),
      ("owner".toList, (.string r.ownerText : Value F))].lookup "models".toList = none := rfl
  have hlast : [("created_at".toList, (.string S.nowRfc3339 : Value F))].lookup
      "models".toList = none := rfl
  simp only [passportMembers, List.lookup_append, listMember_eq, lookup_optionalMember, hhead, hlast,
    if_true]
  rw [if_neg (by decide), if_neg (by decide), if_neg (by decide), if_neg (by decide)]
  simp only [Option.none_or, Option.or_none]

end Members

section Peek

/-- Members of an object that names each of them once are read by their names. -/
theorem peekField_keyed {members : List (Text × Value F)} (h : (members.map Prod.fst).Nodup)
    (name : Text) (place : Nat) :
    peekField (Value.object members).keyed name place = (members.lookup name).map Value.keyed :=
  Value.get_keyed h name

theorem peekStruct_keyed (members : List (Text × Value F)) (size : Nat) :
    peekStruct (Value.object members).keyed size = .ok () := rfl

theorem ofValue_fsScopeJson (s : ValidatedFsScope) :
    FsScopePeek.ofValue (fsScopeJson s : Value F).keyed = .ok ⟨s.path, s.mode⟩ := rfl

theorem lookup_modelJson (m : ValidatedModelDecl) :
    let members : List (Text × Value F) := ("provider".toList, .string m.provider) ::
      (optionalMember "model" (m.model.map .string) ++
        optionalMember "endpoint" (m.endpoint.map .string))
    members.lookup "provider".toList = some (.string m.provider) ∧
      members.lookup "model".toList = m.model.map .string ∧
      members.lookup "endpoint".toList = m.endpoint.map .string := by
  have hmodel : ("model".toList == "provider".toList) = false := by decide
  have hendpoint : ("endpoint".toList == "provider".toList) = false := by decide
  refine ⟨rfl, ?_, ?_⟩
  · simp only [List.lookup_cons, hmodel, List.lookup_append, lookup_optionalMember,
      if_true]
    rw [if_neg (by decide), Option.or_none]
  · simp only [List.lookup_cons, hendpoint, List.lookup_append, lookup_optionalMember,
      if_true]
    rw [if_neg (by decide), Option.none_or]

theorem peekText_keyed (field : Option Text) :
    peekText ((field.map (Value.string (F := F))).map Value.keyed) = .ok (field.getD []) := by
  cases field <;> rfl

/-- A model is read with an empty text for each field that was left out. -/
theorem ofValue_modelJson (m : ValidatedModelDecl) :
    ModelPeek.ofValue (modelJson m : Value F).keyed =
      .ok ⟨m.provider, m.model.getD [], m.endpoint.getD []⟩ := by
  have hnames : ((("provider".toList, (.string m.provider : Value F)) ::
      (optionalMember "model" (m.model.map .string) ++
        optionalMember "endpoint" (m.endpoint.map .string))).map Prod.fst).Sublist
          ["provider".toList, "model".toList, "endpoint".toList] := by
    rw [List.map_cons, List.map_append]
    exact .cons_cons _ ((map_fst_optionalMember _ _).append (map_fst_optionalMember _ _))
  have hnodup := hnames.nodup (by decide)
  obtain ⟨hprovider, hmodel, hendpoint⟩ := lookup_modelJson (F := F) m
  simp only [ModelPeek.ofValue, modelJson, peekStruct_keyed, peekField_keyed hnodup, hprovider,
    hmodel, hendpoint, peekText_keyed]
  rfl

theorem peekList_filled {α β : Type} {ofValue : Value F → Except Text β} {json : α → Value F}
    {peek : α → β} (h : ∀ a, ofValue (json a).keyed = .ok (peek a)) (items : List α) :
    peekList ofValue ((filled (items.map json)).map Value.keyed) = .ok (items.map peek) := by
  cases items with
  | nil => rfl
  | cons a items =>
      have hkeyed : (filled ((a :: items).map json)).map Value.keyed =
          some (.array (((a :: items).map json).map Value.keyed)) := by
        rw [← Value.keyedItems_eq_map]
        rfl
      rw [hkeyed, peekList, List.map_map, List.mapM_map]
      exact mapM_eq_ok fun b _ => h b

end Peek

section Trim

theorem trim_trim (t : Text) : Text.trim (Text.trim t) = Text.trim t :=
  Text.ignoresEnds_trim.trim t

/-- What is given is trimmed and not blank. -/
theorem declaredText_given (field : Option Text) :
    declaredText ((given field).getD []) = given field := by
  rw [declaredText]
  cases hfield : given field with
  | none => rfl
  | some t =>
      obtain ⟨hmap, hne⟩ := Option.filter_eq_some_iff.mp hfield
      obtain ⟨raw, -, rfl⟩ := Option.map_eq_some_iff.mp hmap
      rw [Option.getD_some, given, Option.map_some, trim_trim, Option.filter_some, if_pos hne]

theorem declaredText_trim {t : Text} (h : Text.trim t ≠ []) :
    declaredText (Text.trim t) = some (Text.trim t) := by
  rw [declaredText, given, Option.map_some, trim_trim, Option.filter_some, if_pos]
  simpa using h

end Trim

section Read

variable {S : Surroundings F} {r : OnboardGenerateRequest F} (P : PrettyReader F recursionLimit)

/-- What is read of a passport that is generated of a request. -/
def peekOf (r : OnboardGenerateRequest F) : PassportPeek where
  schema := passportSchema
  id := r.agentId
  owner := r.ownerText
  filesystem := r.declared.filesystem.map fun s => ⟨s.path, s.mode⟩
  models := r.declared.models.map fun m => ⟨m.provider, m.model.getD [], m.endpoint.getD []⟩

theorem ofValue_passport : PassportPeek.ofValue
    (.object (passportMembers S r r.declared) : Value F).keyed = .ok (peekOf r) := by
  have hnodup := nodup_passportMembers S r r.declared
  have hscopes := peekList_filled (F := F) ofValue_fsScopeJson r.declared.filesystem
  have hmodels := peekList_filled (F := F) ofValue_modelJson r.declared.models
  have htext : ∀ t : Text, peekText ((some (.string t : Value F)).map Value.keyed) = .ok t :=
    fun _ => rfl
  simp only [PassportPeek.ofValue, peekStruct_keyed, peekField_keyed hnodup, lookup_schema,
    lookup_id, lookup_owner, lookup_filesystem, lookup_models, hscopes, hmodels, htext]
  rfl

/-- A passport is read back with what was declared in it. -/
theorem peekStr_passportJson (hfloat : P.floatText = S.floatText) :
    peekStr P (passportJson S r r.declared) = .ok (peekOf r) := by
  have hflat := flat_passport S r r.declared
  have hread := P.fromStr_pretty _ hflat.integer (hflat.depth_le.trans (by decide))
  rw [hfloat] at hread
  rw [peekStr, passportJson, hread]
  exact ofValue_passport

theorem peekSlice_passportJson (hfloat : P.floatText = S.floatText) :
    peekSlice P (Utf8.encode (passportJson S r r.declared)) = .ok (peekOf r) := by
  rw [peekSlice, Utf8.fromUtf8_encode]
  exact peekStr_passportJson P hfloat

end Read

section Listed

/-- The scopes of a request as they are listed. -/
def OnboardGenerateRequest.scopeDtos (r : OnboardGenerateRequest F) : List DeclaredFsScopeDto :=
  r.declared.filesystem.map fun s => ⟨some s.path, some s.mode⟩

/-- The models of a request as they are listed. -/
def OnboardGenerateRequest.modelDtos (r : OnboardGenerateRequest F) : List DeclaredModelDto :=
  r.declared.models.map fun m => ⟨some m.provider, m.model, m.endpoint⟩

variable {D : Double F} {r : OnboardGenerateRequest F}

theorem map_intoDto_scopes (h : Passed D r) :
    (peekOf r).filesystem.map FsScopePeek.intoDto = r.scopeDtos := by
  have hmodes : ∀ mode ∈ fsModes, declaredText mode = some mode := by decide
  rw [peekOf, OnboardGenerateRequest.scopeDtos, List.map_map]
  refine List.map_congr_left fun s hs => ?_
  obtain ⟨hmode, hpath⟩ := h.scopes s hs
  obtain ⟨scope, -, rfl⟩ := List.mem_map.mp hs
  have hne : Text.trim scope.path ≠ [] := by
    have hnonempty := (Bool.and_eq_true_iff.mp hpath).1
    simpa [FsScopeDto.declared] using hnonempty
  exact congrArg₂ DeclaredFsScopeDto.mk (declaredText_trim hne) (hmodes _ hmode)

theorem map_intoDto_models (h : Passed D r) :
    (peekOf r).models.map ModelPeek.intoDto = r.modelDtos := by
  rw [peekOf, OnboardGenerateRequest.modelDtos, List.map_map]
  refine List.map_congr_left fun m hm => ?_
  have hne := h.providers m hm
  obtain ⟨decl, -, rfl⟩ := List.mem_map.mp hm
  have hprovider := declaredText_trim hne
  have hmodel := declaredText_given decl.model
  have hendpoint := declaredText_given decl.endpoint
  simp only [Function.comp_apply, ModelPeek.intoDto, ModelDeclDto.declared, hprovider, hmodel,
    hendpoint]

end Listed

section Files

theorem resolvePassportsDir_ne_nil (S : Surroundings F) (arg : Option Text) :
    resolvePassportsDir S arg ≠ [] := by
  have hname : "passports".toList ≠ [] := by decide
  rw [resolvePassportsDir]
  split
  · next dir hdir =>
      have hne := (Option.filter_eq_some_iff.mp hdir).2
      simpa using hne
  · split
    · exact Path.join_ne_nil _ hname
    · split
      · exact Path.join_ne_nil _ hname
      · exact Path.join_ne_nil _ hname

/-- A passport is a JSON file. -/
theorem extension_passportFile {r : OnboardGenerateRequest F} (hpath : r.flatPath ≠ [])
    (dir : Text) : Path.extension (Path.join dir (passportFile r)) = some "json".toList := by
  have hname := isName_passportFile r
  have hreverse : (passportFile r).reverse = "nosj".toList ++ '.' :: r.flatPath.reverse := by
    have hend : ".json".toList.reverse = "nosj".toList ++ ['.'] := by decide
    rw [passportFile, List.reverse_append, hend, List.append_assoc]
    rfl
  have hsplit : Text.splitOnce '.' (passportFile r).reverse =
      some ("nosj".toList, r.flatPath.reverse) := by
    rw [hreverse]
    exact Text.splitOnce_append '.' _ _ (by decide)
  have hdots : Path.splitAtDot (passportFile r) = (some r.flatPath, some "json".toList) := by
    obtain ⟨c, cs, hcons⟩ := List.exists_cons_of_ne_nil (List.reverse_ne_nil_iff.mpr hpath)
    have hflat : r.flatPath = (c :: cs).reverse := by rw [← hcons, List.reverse_reverse]
    rw [Path.splitAtDot, if_neg hname.ne_dots, hsplit, hcons, hflat]
    rfl
  rw [Path.extension, Path.fileName_join dir hname, Option.bind_some, hdots]
  rfl

variable {σ : Type} {P : PrettyReader F recursionLimit} {fs : FileSystem σ}
  {map : Option (MapFile F)} {s : σ}

/-- A file is listed under its own path, or skipped under it. -/
theorem file_listFile (file : Text) :
    (∀ p, listFile P fs map s file = .inr p → p.file = file) ∧
      ∀ k, listFile P fs map s file = .inl k → k.file = file := by
  rw [listFile]
  split
  · exact ⟨fun p h => (nomatch h), fun k h => by cases h; rfl⟩
  · split
    · exact ⟨fun p h => (nomatch h), fun k h => by cases h; rfl⟩
    · split
      · exact ⟨fun p h => (nomatch h), fun k h => by cases h; rfl⟩
      · split
        · exact ⟨fun p h => (nomatch h), fun k h => by cases h; rfl⟩
        · exact ⟨fun p h => by cases h; rfl, fun k h => (nomatch h)⟩

/-- Of distinct files each one that is listed is listed once. -/
theorem filter_listed {files : List Text} (hnodup : files.Nodup) {file : Text} (hmem : file ∈ files)
    {p : ProvisionedDto} (hp : listFile P fs map s file = .inr p) :
    ((files.map (listFile P fs map s)).filterMap Sum.getRight?).filter (·.file = file) = [p] := by
  have hother : ∀ part : List Text, file ∉ part →
      ((part.map (listFile P fs map s)).filterMap Sum.getRight?).filter (·.file = file) = [] := by
    intro part hpart
    refine List.filter_eq_nil_iff.mpr fun q hq hfile => hpart ?_
    rw [List.filterMap_map, List.mem_filterMap] at hq
    obtain ⟨other, hother, hright⟩ := hq
    have hresult : listFile P fs map s other = .inr q := Sum.getRight?_eq_some_iff.mp hright
    rw [← of_decide_eq_true hfile, (file_listFile other).1 q hresult]
    exact hother
  obtain ⟨a, b, rfl⟩ := List.append_of_mem hmem
  obtain ⟨-, hb, hdisjoint⟩ := List.nodup_append.mp hnodup
  have ha : file ∉ a := fun h => hdisjoint file h file List.mem_cons_self rfl
  have hfile : ((file :: b).map (listFile P fs map s)).filterMap Sum.getRight? =
      p :: (b.map (listFile P fs map s)).filterMap Sum.getRight? := by
    rw [List.map_cons, hp]
    rfl
  have hself : decide (p.file = file) = true := decide_eq_true ((file_listFile file).1 p hp)
  rw [List.map_append, List.filterMap_append, List.filter_append, hother a ha, hfile,
    List.filter_cons_of_pos (by exact hself), hother b (List.nodup_cons.mp hb).1]
  rfl

theorem file_of_skipped {files : List Text} {k : SkippedDto}
    (hk : k ∈ (files.map (listFile P fs map s)).filterMap Sum.getLeft?) :
    listFile P fs map s k.file = .inl k := by
  rw [List.filterMap_map, List.mem_filterMap] at hk
  obtain ⟨file, -, hleft⟩ := hk
  have hresult : listFile P fs map s file = .inl k := Sum.getLeft?_eq_some_iff.mp hleft
  rw [(file_listFile file).2 k hresult]
  exact hresult

end Files

theorem ensure_of {condition : Bool} (h : condition = true) (message : Text) :
    ensure condition message = .ok () :=
  if_pos h

theorem bind_ok {ε α β : Type} (a : α) (f : α → Except ε β) : (Except.ok a >>= f) = f a := rfl

/-- The directory that a passport is generated for. -/
def Generated.passportsDir (g : Generated F) : Text :=
  resolvePassportsDir g.around g.request.passportsDir

/-- The status lists the passport of an agent, once and as it was declared. -/
structure ListedAsDeclared (g : Generated F) (status : OnboardStatusDto F) : Prop where
  once : ∃ p, status.passports.filter (·.file = g.bundle.passportPath) = [p] ∧
    p.agentId = g.bundle.agentId ∧ p.owner = g.request.ownerText ∧
    p.filesystem = g.request.scopeDtos ∧ p.models = g.request.modelDtos
  not_skipped : ∀ k ∈ status.skipped, k.file ≠ g.bundle.passportPath

/-- An agent whose passport is staged where no file was before, on a file system that lets the
directory be made, resolved and listed, and the file be written. -/
structure Staging (F σ : Type) where
  agent : Generated F
  reader : PrettyReader F recursionLimit
  reader_floatText : reader.floatText = agent.around.floatText
  files : FileSystem σ
  before : σ
  overwrite : Bool
  made : σ
  canon : Text
  after : σ
  names : List Text
  absent : files.isThere before (Path.components agent.bundle.passportPath) = false
  createDirAll_eq : files.createDirAll before (Path.components agent.passportsDir) = .ok made
  canonicalize_eq : files.canonicalize made (Path.components agent.passportsDir) = .ok canon
  write_eq : files.write made (Path.components (Path.join canon (passportFile agent.request)))
    (Utf8.encode agent.bundle.passportJson) = .ok after
  readDir_eq : files.readDir after (Path.components agent.passportsDir) = .ok names

namespace Staging

variable {σ : Type} (t : Staging F σ)

/-- Whether the directory is given by a path with `..` in it. -/
def GoesUp : Prop := .parentDir ∈ Path.components t.agent.passportsDir

instance : Decidable t.GoesUp :=
  inferInstanceAs (Decidable (.parentDir ∈ Path.components t.agent.passportsDir))

/-- Write the passport to its path. -/
def write : Except OnboardError (OnboardWriteDto × σ) :=
  onboardWritePassport t.agent.around t.reader t.files t.before
    ⟨t.agent.bundle.passportJson, t.agent.bundle.passportPath, t.agent.request.passportsDir,
      t.overwrite⟩

/-- The status over the directory once the passport has been written. -/
def status (mapPath : Option Text) : OnboardStatusDto F :=
  onboardStatus t.reader t.files t.agent.around t.after ⟨mapPath, t.agent.request.passportsDir⟩

theorem passportPath_eq :
    t.agent.bundle.passportPath = Path.join t.agent.passportsDir (passportFile t.agent.request) :=
  t.agent.passportPath_eq

theorem components_passportPath : Path.components t.agent.bundle.passportPath =
    Path.components t.agent.passportsDir ++ [.normal (passportFile t.agent.request)] := by
  rw [passportPath_eq, Path.components_join _ (isName_passportFile _)]

theorem checkContent_eq : checkContent t.reader t.agent.bundle.passportJson = .ok () := by
  have hschema : decide ((peekOf t.agent.request).schema = passportSchema) = true :=
    decide_eq_true rfl
  have howner : (!(Text.trim (peekOf t.agent.request).owner).isEmpty) = true := by
    have htrim : Text.trim (peekOf t.agent.request).owner = t.agent.request.ownerText :=
      trim_trim t.agent.request.owner
    rw [htrim, Bool.not_eq_true']
    exact List.isEmpty_eq_false_iff.mpr t.agent.passed.owner
  have hread := peekStr_passportJson (S := t.agent.around) (r := t.agent.request) t.reader
    t.reader_floatText
  rw [checkContent, t.agent.passportJson_eq, hread]
  dsimp only
  rw [ensure_of hschema, bind_ok, ensure_of (by exact t.agent.passed.agentId), bind_ok,
    ensure_of howner]

theorem checkPath_eq (h : ¬ t.GoesUp) :
    checkPath t.agent.bundle.passportPath t.agent.passportsDir =
      .ok (Path.components t.agent.passportsDir, passportFile t.agent.request) := by
  have hname := isName_passportFile t.agent.request
  have hup : .parentDir ∉ Path.components t.agent.bundle.passportPath := by
    rw [components_passportPath, List.mem_append, not_or]
    exact ⟨h, by simp⟩
  have hparent : (Path.parent t.agent.bundle.passportPath).filter (· ≠ []) =
      some (Path.components t.agent.passportsDir) := by
    have hne := Path.components_ne_nil (resolvePassportsDir_ne_nil t.agent.around
      t.agent.request.passportsDir)
    rw [passportPath_eq, Path.parent_join _ hname, Option.filter_some, if_pos]
    exact decide_eq_true hne
  have hfile : Path.fileName t.agent.bundle.passportPath = some (passportFile t.agent.request) := by
    rw [passportPath_eq, Path.fileName_join _ hname]
  rw [checkPath, ensure_of (decide_eq_true hup), bind_ok, hparent]
  dsimp only
  rw [hfile]

/-- A path with `..` in it is refused. -/
theorem write_of_goesUp (h : t.GoesUp) : ∃ message, t.write = .error (.invalid message) := by
  have hup : ¬ (.parentDir ∉ Path.components t.agent.bundle.passportPath) := by
    rw [components_passportPath, not_not]
    exact List.mem_append_left _ h
  obtain ⟨message, hpath⟩ : ∃ message,
      checkPath t.agent.bundle.passportPath t.agent.passportsDir = .error (.invalid message) := by
    rw [checkPath, ensure, if_neg (by simpa using hup)]
    exact ⟨_, rfl⟩
  rw [Generated.passportsDir] at hpath
  refine ⟨message, ?_⟩
  rw [write, onboardWritePassport, checkContent_eq, bind_ok]
  dsimp only
  rw [hpath]
  rfl

theorem isThere_target : t.files.isThere t.made
    (Path.components t.canon ++ [.normal (passportFile t.agent.request)]) = false := by
  have habsent := t.absent
  rw [components_passportPath] at habsent
  rw [← t.files.isThere_canonicalize t.canonicalize_eq]
  exact t.files.isThere_createDirAll habsent t.createDirAll_eq

theorem write_target : t.files.write t.made
    (Path.components t.canon ++ [.normal (passportFile t.agent.request)])
      (Utf8.encode t.agent.bundle.passportJson) = .ok t.after := by
  have hwrite := t.write_eq
  rwa [Path.components_join _ (isName_passportFile _)] at hwrite

/-- Without a `..` the passport is written to the directory. -/
theorem write_of_not_goesUp (h : ¬ t.GoesUp) : t.write = .ok
    (⟨Path.join t.canon (passportFile t.agent.request),
      !t.files.isThere t.before (Path.components t.agent.passportsDir)⟩, t.after) := by
  have hsame : Path.same t.canon t.canon = true := Path.same_iff.mpr rfl
  have htarget := t.isThere_target
  have hwrite := t.write_target
  rw [← Path.components_join _ (isName_passportFile _)] at htarget hwrite
  have hcheck := t.checkPath_eq h
  have hcreate := t.createDirAll_eq
  have hcanon := t.canonicalize_eq
  rw [Generated.passportsDir] at hcheck hcreate hcanon
  rw [write, onboardWritePassport, checkContent_eq, bind_ok]
  dsimp only
  rw [hcheck, bind_ok]
  dsimp only
  rw [hcreate, onFailure, bind_ok, hcanon, onFailure, bind_ok, onFailure, bind_ok, ensure_of hsame,
    bind_ok, htarget, Bool.false_and, if_neg Bool.false_ne_true, hwrite]
  rfl

theorem canonicalize_after :
    t.files.canonicalize t.after (Path.components t.agent.passportsDir) = .ok t.canon :=
  t.files.canonicalize_write t.isThere_target t.write_target t.canonicalize_eq

/-- The staged passport is read back from its path. -/
theorem read_passportPath : t.files.read t.after (Path.components t.agent.bundle.passportPath) =
    .ok (Utf8.encode t.agent.bundle.passportJson) := by
  rw [components_passportPath, t.files.read_canonicalize t.canonicalize_after]
  exact t.files.read_write t.isThere_target t.write_target

/-- The staged passport is among the files of the directory, and none of these is there twice. -/
theorem passportPath_mem : t.agent.bundle.passportPath ∈ jsonFiles t.agent.passportsDir t.names ∧
    (jsonFiles t.agent.passportsDir t.names).Nodup := by
  have hmem := t.files.readDir_write t.canonicalize_eq t.isThere_target t.write_target t.readDir_eq
  have hperm := List.mergeSort_perm ((t.names.map (Path.join t.agent.passportsDir)).filter fun file =>
    Path.extension file = some "json".toList) Path.le
  have hflat : t.agent.request.flatPath ≠ [] := by
    have hpath := (Bool.and_eq_true_iff.mp t.agent.passed.agentPath).1
    rw [Bool.not_eq_true', List.isEmpty_eq_false_iff] at hpath
    rw [OnboardGenerateRequest.flatPath, replaceChars_eq_map]
    exact mt List.map_eq_nil_iff.mp hpath
  constructor
  · rw [jsonFiles, hperm.mem_iff, List.mem_filter, decide_eq_true_eq, passportPath_eq]
    exact ⟨List.mem_map_of_mem hmem, extension_passportFile hflat _⟩
  · rw [jsonFiles, hperm.nodup_iff]
    refine (List.Nodup.map_on (fun a ha b hb hjoin => ?_) (t.files.nodup_readDir t.readDir_eq)).filter _
    have hnames := t.files.isName_readDir t.readDir_eq
    exact Path.join_injective _ (hnames a ha) (hnames b hb) hjoin

/-- How the staged passport is listed. -/
theorem listFile_passportPath (map : Option (MapFile F)) :
    ∃ p, listFile t.reader t.files map t.after t.agent.bundle.passportPath = .inr p ∧
      p.agentId = t.agent.bundle.agentId ∧ p.owner = t.agent.request.ownerText ∧
      p.filesystem = t.agent.request.scopeDtos ∧ p.models = t.agent.request.modelDtos := by
  have hread := peekSlice_passportJson (S := t.agent.around) (r := t.agent.request) t.reader
    t.reader_floatText
  have hschema : ¬ (peekOf t.agent.request).schema ≠ passportSchema := not_not.mpr rfl
  have hid : (!validAgentId (peekOf t.agent.request).id) = false := by
    rw [peekOf, t.agent.passed.agentId]
    rfl
  rw [listFile, t.read_passportPath, t.agent.passportJson_eq]
  dsimp only
  rw [hread]
  dsimp only
  rw [if_neg hschema, hid, if_neg Bool.false_ne_true]
  exact ⟨_, rfl, t.agent.agentId_eq.symm, rfl, map_intoDto_scopes t.agent.passed,
    map_intoDto_models t.agent.passed⟩

/-- Once it has been written, the passport is listed as it was declared. -/
theorem listedAsDeclared (mapPath : Option Text) :
    ListedAsDeclared t.agent (t.status mapPath) := by
  obtain ⟨hmem, hnodup⟩ := t.passportPath_mem
  have hdir : ∀ map, listDir t.reader t.files map t.after t.agent.passportsDir =
      let listed := (jsonFiles t.agent.passportsDir t.names).map
        (listFile t.reader t.files map t.after)
      (listed.filterMap Sum.getRight?, listed.filterMap Sum.getLeft?) := fun map => by
    rw [listDir, t.readDir_eq]
  rw [status, onboardStatus]
  dsimp only
  rw [← Generated.passportsDir, hdir]
  obtain ⟨p, hp, hdeclared⟩ := t.listFile_passportPath
    (((resolveMapPath t.agent.around mapPath).map (loadMap t.agent.around)).bind Except.toOption)
  constructor
  · exact ⟨p, filter_listed hnodup hmem hp, hdeclared⟩
  · intro k hk hfile
    have hskipped := file_of_skipped hk
    rw [hfile, hp] at hskipped
    cases hskipped

/-- The passport is refused where its directory is given by a path with `..` in it. Elsewhere it
is written, and listed as it was declared. -/
theorem written_and_listed : (t.GoesUp → ∃ message, t.write = .error (.invalid message)) ∧
    (¬ t.GoesUp → (∃ dto, t.write = .ok (dto, t.after)) ∧
      ∀ mapPath, ListedAsDeclared t.agent (t.status mapPath)) :=
  ⟨t.write_of_goesUp, fun h => ⟨⟨_, t.write_of_not_goesUp h⟩, t.listedAsDeclared⟩⟩

end Staging

section Sample

/-- The files of a directory that all paths to directories lead to. -/
structure Folder where
  files : List (Text × Bytes)
  nodup : (files.map Prod.fst).Nodup
  isName : ∀ name ∈ files.map Prod.fst, Path.IsName name

namespace Folder

/-- A folder with a file in the place of one of its name. -/
def put (s : Folder) (name : Text) (h : Path.IsName name) (bytes : Bytes) : Folder where
  files := (name, bytes) :: s.files.filter (·.1 ≠ name)
  nodup := by
    refine List.nodup_cons.mpr ⟨fun hmem => ?_, (List.filter_sublist.map _).nodup s.nodup⟩
    obtain ⟨file, hfile, hname⟩ := List.mem_map.mp hmem
    exact of_decide_eq_true (List.mem_filter.mp hfile).2 hname
  isName := List.forall_mem_cons.mpr ⟨h, fun other hother =>
    s.isName other ((List.filter_sublist.map Prod.fst).subset hother)⟩

/-- The file that a path leads to. -/
def nameOf (file : Place) : Option Text :=
  match file.getLast? with
  | some (.normal name) => some name
  | _ => none

theorem nameOf_concat (dir : Place) (name : Text) : nameOf (dir ++ [.normal name]) = some name := by
  rw [nameOf, List.getLast?_concat]

instance (name : Text) : Decidable (Path.IsName name) :=
  decidable_of_iff (name ≠ [] ∧ name ≠ "." ∧ name ≠ ".." ∧ '/' ∉ name)
    ⟨fun h => ⟨h.1, h.2.1, h.2.2.1, h.2.2.2⟩,
      fun h => ⟨h.ne_nil, h.ne_dot, h.ne_dots, h.slash_notMem⟩⟩

def isThere (s : Folder) (file : Place) : Bool :=
  (nameOf file).all fun name => name ∈ s.files.map Prod.fst

def write (s : Folder) (file : Place) (bytes : Bytes) : Except Text Folder :=
  match nameOf file with
  | none => .error "Is a directory (os error 21)"
  | some name =>
      if h : Path.IsName name then .ok (s.put name h bytes)
      else .error "Invalid argument (os error 22)"

def read (s : Folder) (file : Place) : Except Text Bytes :=
  match (nameOf file).bind fun name => s.files.lookup name with
  | none => .error "No such file or directory (os error 2)"
  | some bytes => .ok bytes

theorem write_eq_ok {s s' : Folder} {file : Place} {bytes : Bytes}
    (h : s.write file bytes = .ok s') :
    ∃ name, nameOf file = some name ∧ ∃ hname, s' = s.put name hname bytes := by
  rw [write] at h
  split at h
  · cases h
  · next name hname =>
      split at h
      · next his =>
          cases h
          exact ⟨name, hname, his, rfl⟩
      · cases h

theorem write_concat (s : Folder) (dir : Place) {name : Text} (h : Path.IsName name)
    (bytes : Bytes) : s.write (dir ++ [.normal name]) bytes = .ok (s.put name h bytes) := by
  rw [write, nameOf_concat]
  exact dif_pos h

/-- Folders as a file system. -/
def fileSystem : FileSystem Folder where
  isThere := isThere
  createDirAll s _ := .ok s
  canonicalize _ _ := .ok "/"
  write := write
  readDir s _ := .ok (s.files.map Prod.fst)
  read := read
  isThere_createDirAll h hcreate := by
    cases hcreate
    exact h
  isThere_canonicalize _ := by rw [isThere, isThere, nameOf_concat, nameOf_concat]
  read_canonicalize _ := by rw [read, read, nameOf_concat, nameOf_concat]
  canonicalize_write _ _ h := h
  read_write := by
    intro s s' file bytes _ hwrite
    obtain ⟨name, hname, hisName, rfl⟩ := write_eq_ok hwrite
    have hfound : (s.put name hisName bytes).files.lookup name = some bytes := List.lookup_cons_self
    rw [read, hname, Option.bind_some, hfound]
  readDir_write _ _ hwrite hread := by
    obtain ⟨name, hname, _, rfl⟩ := write_eq_ok hwrite
    rw [nameOf_concat] at hname
    cases hname
    cases hread
    exact List.mem_cons_self
  nodup_readDir := by
    intro s dir names h
    cases h
    exact s.nodup
  isName_readDir := by
    intro s dir names h
    cases h
    exact s.isName

end Folder

/-- A request for the passports directory beside the one that the wizard was started in. -/
def besideRequest : OnboardGenerateRequest Decimal :=
  { sampleRequest "bank.example" "recon" with passportsDir := some "../passports" }

def besideAgent : Generated Decimal :=
  .ofCheck sampleSurroundings besideRequest ⟨[], []⟩ sampleSecret
    (by decide) (by decide) minted_sample

def emptyFolder : Folder := ⟨[], List.nodup_nil, fun _ h => absurd h List.not_mem_nil⟩

/-- The staging of a passport in an empty folder. -/
def emptyStaging (agent : Generated Decimal) : Staging Decimal Folder where
  agent := agent
  reader := .ofRead Decimal.double.ofDecimal agent.around.floatText recursionLimit
  reader_floatText := rfl
  files := Folder.fileSystem
  before := emptyFolder
  overwrite := false
  made := emptyFolder
  canon := "/"
  after := emptyFolder.put _ (isName_passportFile agent.request)
    (Utf8.encode agent.bundle.passportJson)
  names := [passportFile agent.request]
  absent := by
    rw [agent.passportPath_eq, passportPath, Path.components_join _ (isName_passportFile _)]
    show Folder.isThere _ _ = false
    rw [Folder.isThere, Folder.nameOf_concat]
    rfl
  createDirAll_eq := rfl
  canonicalize_eq := rfl
  write_eq := by
    rw [Path.components_join _ (isName_passportFile agent.request)]
    exact Folder.write_concat emptyFolder (Path.components "/".toList)
      (isName_passportFile agent.request) (Utf8.encode agent.bundle.passportJson)
  readDir_eq := rfl

/-- A passport is written to the directory below the home directory, and listed. -/
theorem written_and_listed_bank :
    (∃ dto, (emptyStaging bankAgent).write = .ok (dto, (emptyStaging bankAgent).after)) ∧
      ∀ mapPath, ListedAsDeclared bankAgent ((emptyStaging bankAgent).status mapPath) :=
  (emptyStaging bankAgent).written_and_listed.2 (by decide)

/-- A passport for a directory that is given with a `..` is not written. -/
theorem beside_refused : ¬ ∀ t : Staging Decimal Folder, ∃ dto, t.write = .ok (dto, t.after) := by
  intro h
  obtain ⟨dto, hwrite⟩ := h (emptyStaging besideAgent)
  obtain ⟨message, hrefused⟩ := (emptyStaging besideAgent).write_of_goesUp (by decide)
  rw [hrefused] at hwrite
  cases hwrite

end Sample

end Genaryx.Onboard
