import GrammarSynthesis.Proofs.Layers
import GrammarSynthesis.Proofs.Reachability
import GrammarSynthesis.Settings.BaseModules

/-!
# Imports of the base modules

The marker modules of rules and of configurations import the markers of the capabilities that these
grammars need. The settings may have no marker for one of them. The import is not left out then: the
marker module imports the empty name, and no base module has that name unless the settings give it
to one. So a marker that is missing makes another marker module unusable.

* `Settings.get?_standardBase`: the last module of a name is the one that counts;
* `Settings.import_found`: the name of a missing marker is the only one that is not found;
* `Settings.bundled_base_closed_iff`: which base modules can be imported, and how the others fail;
* `Settings.missing_marker_breaks_import`: a marker of rules that stands alone cannot be imported.
-/
namespace GrammarSynthesis.Settings

open Definition

/-- The capabilities whose markers the marker module of a capability imports. -/
def needs : Capability → List Capability
  | .ruleCells => [.autoCasts, .topSort, .bottomSort, .autoFollow, .ruleLists]
  | .configCells => [.autoCasts, .topSort, .bottomSort]
  | _ => []

/-- The base module of a name is the marker module of a capability: of the entries with that name,
the last is one of the capability. -/
def Marks (cfg : Settings) (c : Capability) (name : String) : Prop :=
  (cfg.markers.reverse.find? fun entry => entry.2 = name) = some (c, name)

/-- The base module of a name is to import the marker of a capability that has none. -/
def Lacks (cfg : Settings) (name : String) : Prop :=
  ∃ c, cfg.Marks c name ∧ ∃ needed ∈ needs c, cfg.marker? needed = none

variable {cfg : Settings} {c : Capability} {name : String} {m : Module}

/-! ## What the base holds -/

theorem mem_markerImports_iff {n : String} :
    n ∈ cfg.markerImports c ↔
      n = cfg.coreModule ∧ needs c ≠ [] ∨ ∃ needed ∈ needs c, n = cfg.markerOrEmpty needed := by
  cases c <;> simp [markerImports, needs]

theorem get?_standardBase_iff :
    cfg.standardBase.get? name = some m ↔ m ∈ cfg.standardBase.own ∧ m.name = name := by
  rw [← Catalog.find?_eq_some_iff]
  simp [get?, layers, standardBase]

/-- Marker modules hide the others, and of two marker modules with one name the later hides the
earlier. -/
theorem get?_standardBase (cfg : Settings) (name : String) :
    cfg.standardBase.get? name =
      ((cfg.markers.reverse.find? fun entry => entry.2 = name).map fun entry =>
          { name := entry.2, imports := cfg.markerImports entry.1 }).or
        (if cfg.coreModule = name then some cfg.coreModuleBody
          else if cfg.basicModule = name then some cfg.basicModuleBody else none) := by
  have hown : cfg.standardBase.get? name = cfg.standardBase.own.find? name := by
    simp [get?, layers, standardBase]
  rw [hown, standardBase, Catalog.find?_ofList]
  simp only [List.reverse_cons, List.append_assoc, List.find?_append, markerModules,
    ← List.map_reverse, List.find?_map]
  congr 1
  by_cases hcore : cfg.coreModule = name <;> by_cases hbasic : cfg.basicModule = name <;>
    simp [coreModuleBody, basicModuleBody, hcore, hbasic]

/-- The modules of the base: the two with sentences, and the marker modules. -/
theorem standardBase_cases (h : cfg.standardBase.get? name = some m) :
    (∃ c, cfg.Marks c name ∧ m.imports = cfg.markerImports c) ∨
      m = cfg.coreModuleBody ∨ m = cfg.basicModuleBody := by
  rw [get?_standardBase] at h
  cases hfind : cfg.markers.reverse.find? fun entry => entry.2 = name with
  | some entry =>
    have hname : entry.2 = name := by simpa using List.find?_some hfind
    simp only [hfind, Option.map_some, Option.some_or, Option.some.injEq] at h
    subst h hname
    exact .inl ⟨entry.1, hfind, rfl⟩
  | none =>
    simp only [hfind, Option.map_none, Option.none_or] at h
    split at h
    · exact .inr (.inl (Option.some.inj h).symm)
    · split at h
      · exact .inr (.inr (Option.some.inj h).symm)
      · cases h

theorem exists_get?_of_marks (h : cfg.Marks c name) :
    ∃ x, cfg.standardBase.get? name = some x ∧ x.imports = cfg.markerImports c := by
  unfold Marks at h
  rw [get?_standardBase, h]
  exact ⟨_, rfl, rfl⟩

/-- Each name that the settings mention is that of a base module. -/
theorem exists_get?_iff :
    (∃ x, cfg.standardBase.get? name = some x) ↔
      cfg.coreModule = name ∨ cfg.basicModule = name ∨ ∃ c, (c, name) ∈ cfg.markers := by
  rw [get?_standardBase, ← Option.isSome_iff_exists, Option.isSome_or, Option.isSome_map,
    Bool.or_eq_true, List.find?_isSome]
  have hrest : (if cfg.coreModule = name then some cfg.coreModuleBody
      else if cfg.basicModule = name then some cfg.basicModuleBody else none).isSome = true ↔
      cfg.coreModule = name ∨ cfg.basicModule = name := by
    split
    · simp [*]
    · split <;> simp [*]
  rw [hrest, or_comm, or_assoc]
  simp

/-! ## What base modules import -/

/-- An import of a base module is found unless it stands for a marker that is missing. -/
theorem import_found {n : String} (h : cfg.standardBase.get? name = some m)
    (hn : n ∈ m.imports) :
    (∃ x, cfg.standardBase.get? n = some x) ∨ n = "" ∧ cfg.Lacks name := by
  rcases standardBase_cases h with ⟨c, hc, himports⟩ | rfl | rfl
  · rw [himports, mem_markerImports_iff] at hn
    rcases hn with ⟨rfl, -⟩ | ⟨needed, hneeded, rfl⟩
    · exact .inl (exists_get?_iff.2 (.inl rfl))
    · cases hmarker : cfg.marker? needed with
      | none => exact .inr ⟨by simp [markerOrEmpty, hmarker], c, hc, needed, hneeded, hmarker⟩
      | some marker =>
        obtain ⟨entry, hentry, rfl⟩ := Option.map_eq_some_iff.1 hmarker
        have hmem := List.mem_of_find?_eq_some hentry
        refine .inl (exists_get?_iff.2 (.inr (.inr ⟨entry.1, ?_⟩)))
        simpa [markerOrEmpty, hmarker] using hmem
  · simp only [coreModuleBody, List.mem_singleton] at hn
    exact .inl (exists_get?_iff.2 (.inr (.inl hn.symm)))
  · simp [basicModuleBody] at hn

/-- The marker module that lacks a marker imports the empty name. -/
theorem Lacks.imports_empty (h : cfg.Lacks name) :
    ∃ x, cfg.standardBase.get? name = some x ∧ "" ∈ x.imports := by
  obtain ⟨c, hc, needed, hneeded, hmarker⟩ := h
  obtain ⟨x, hx, himports⟩ := exists_get?_of_marks hc
  refine ⟨x, hx, ?_⟩
  rw [himports, mem_markerImports_iff]
  exact .inr ⟨needed, hneeded, by simp [markerOrEmpty, hmarker]⟩

/-! ## Closures within the base -/

/-- The name is that of the module, or the module imports it, be it through others. -/
def Meets (cfg : Settings) (m : Module) (name : String) : Prop :=
  name = m.name ∨ cfg.standardBase.Reaches m.imports name

/-- What a module imports, be it through others, is found, or a marker module on the way lacks a
marker. -/
theorem found_or_lacks (hm : m ∈ cfg.standardBase.own) {n : String}
    (hn : cfg.standardBase.Reaches m.imports n) :
    (∃ x, cfg.standardBase.get? n = some x) ∨
      n = "" ∧ ∃ importer, cfg.Meets m importer ∧ cfg.Lacks importer := by
  cases hn with
  | direct hi =>
    exact (import_found (get?_standardBase_iff.2 ⟨hm, rfl⟩) hi).imp_right fun ⟨he, hl⟩ =>
      ⟨he, m.name, .inl rfl, hl⟩
  | step hr hget hi =>
    exact (import_found hget hi).imp_right fun ⟨he, hl⟩ => ⟨he, _, .inr hr, hl⟩

/-- A module that meets a marker module without a marker imports the empty name. -/
theorem reaches_empty (hm : m ∈ cfg.standardBase.own) (h : cfg.Meets m name)
    (hl : cfg.Lacks name) : cfg.standardBase.Reaches m.imports "" := by
  obtain ⟨x, hx, hempty⟩ := hl.imports_empty
  rcases h with rfl | hr
  · rw [get?_standardBase_iff.2 ⟨hm, rfl⟩] at hx
    cases hx
    exact .direct hempty
  · exact hr.step hx hempty

theorem exists_importClosure_standardBase_iff (hm : m ∈ cfg.standardBase.own) :
    (∃ closure, cfg.standardBase.importClosure m = .ok closure) ↔
      (∃ x, cfg.standardBase.get? "" = some x) ∨ ∀ name, cfg.Meets m name → ¬ cfg.Lacks name := by
  rw [exists_importClosure_iff]
  constructor
  · intro hall
    by_cases hempty : ∃ x, cfg.standardBase.get? "" = some x
    · exact .inl hempty
    · exact .inr fun name h hl => hempty (hall "" (reaches_empty hm h hl))
  · intro h n hn
    rcases found_or_lacks hm hn with hfound | ⟨rfl, importer, hmeets, hl⟩
    · exact hfound
    · exact h.resolve_right fun hnone => hnone importer hmeets hl

/-- **Base modules can be imported unless a marker is missing.** The modules of the base all have
their import closures if and only if each capability that a marker module of the base needs has a
marker, or some base module has the empty name. In detail, a base module has a closure if it is no
marker module that lacks a marker and leads to none. If it has no closure, the error names the
marker module that lacks a marker as the importer of the empty name. -/
theorem bundled_base_closed_iff (cfg : Settings) :
    ((∀ m ∈ cfg.standardBase.own, ∃ closure, cfg.standardBase.importClosure m = .ok closure) ↔
      cfg.standardBase.contains "" = true ∨ ∀ name, ¬ cfg.Lacks name) ∧
    ∀ m ∈ cfg.standardBase.own,
      ((∃ closure, cfg.standardBase.importClosure m = .ok closure) ↔
        cfg.standardBase.contains "" = true ∨ ∀ name, cfg.Meets m name → ¬ cfg.Lacks name) ∧
      ∀ e, cfg.standardBase.importClosure m = .error e →
        ∃ importer, e = .unknownModule "" (some importer) ∧ cfg.Meets m importer ∧
          cfg.Lacks importer := by
  have hcontains : cfg.standardBase.contains "" = true ↔
      ∃ x, cfg.standardBase.get? "" = some x := Option.isSome_iff_exists
  rw [hcontains]
  refine ⟨⟨fun hall => ?_, fun h m hm => ?_⟩, fun m hm => ⟨?_, fun e he => ?_⟩⟩
  · by_cases hempty : ∃ x, cfg.standardBase.get? "" = some x
    · exact .inl hempty
    · refine .inr fun name hl => ?_
      -- the module that lacks a marker is itself one of the base
      obtain ⟨x, hx, -⟩ := hl.imports_empty
      obtain ⟨hmem, rfl⟩ := get?_standardBase_iff.1 hx
      have hclosed := (exists_importClosure_standardBase_iff hmem).1 (hall x hmem)
      exact hclosed.resolve_left hempty x.name (.inl rfl) hl
  · exact (exists_importClosure_standardBase_iff hm).2 (h.imp_right fun hnone name _ => hnone name)
  · exact exists_importClosure_standardBase_iff hm
  · obtain ⟨n, x, rfl, -, hnone, hi, hx⟩ := importClosure_error he
    have himporter : cfg.Meets m x.name ∧ cfg.standardBase.get? x.name = some x := by
      rcases hx with rfl | ⟨hr, hget⟩
      · exact ⟨.inl rfl, get?_standardBase_iff.2 ⟨hm, rfl⟩⟩
      · exact ⟨.inr hr, hget⟩
    rcases import_found himporter.2 hi with ⟨y, hy⟩ | ⟨rfl, hl⟩
    · rw [hnone] at hy
      cases hy
    · exact ⟨x.name, rfl, himporter.1, hl⟩

/-- Settings with a marker for rules and none for what rules need. -/
def ruleMarkerAlone : Settings := { markers := [(.ruleCells, "RULE-CELLS")] }

/-- The marker module of rules imports the empty name, and no module has it. -/
theorem missing_marker_breaks_import :
    ∃ m ∈ ruleMarkerAlone.standardBase.own.toList, m.name = "RULE-CELLS" ∧
      ruleMarkerAlone.standardBase.importClosure m =
        .error (.unknownModule "" (some "RULE-CELLS")) := by
  decide +kernel

/-- With a marker for each capability, all base modules can be imported. -/
example : ∀ m ∈ ({} : Settings).standardBase.own.toList,
    (({} : Settings).standardBase.importClosure m).isOk = true := by
  decide +kernel

end GrammarSynthesis.Settings
