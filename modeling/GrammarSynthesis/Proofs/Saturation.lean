import GrammarSynthesis.Proofs.Extension
import GrammarSynthesis.Sample.Lambda

/-!
# Saturated modules

A module is saturated if it sees all casts of the sorts that the user defined. An extension is: the
casts that its module lacked are its own sentences now, and the others are seen as before. It asks
for no further casts, since a cast makes a sort that had its casts already, or the top or the bottom
sort, which are reserved, and the core module that it imports brings in no sentence of the user.

* `Settings.CoreInBase`: the core module reaches base modules only;
* `Casts.extend?_eq_none_iff`: a module gets no casts if it is saturated, and only then;
* `Casts.saturated_extension`: an extension is saturated;
* `Casts.extension_saturated`: to extend a module twice is to extend it once.
-/
namespace GrammarSynthesis

open Definition

/-- The core module and all modules of its closure are base modules. -/
def Settings.CoreInBase (cfg : Settings) (d : Definition) : Prop :=
  ∃ core, d.lookup cfg.coreModule = .ok core ∧ ∃ closure, d.importClosure core = .ok closure ∧
    ∀ x ∈ core :: closure, d.isBase x.name = true

instance (cfg : Settings) (d : Definition) : Decidable (cfg.CoreInBase d) :=
  inferInstanceAs <| Decidable <|
    ∃ core, d.lookup cfg.coreModule = .ok core ∧ ∃ closure, d.importClosure core = .ok closure ∧
      ∀ x ∈ core :: closure, d.isBase x.name = true

variable {cfg : Settings} {d : Definition} {m : Module} {cs : Capabilities}

theorem Settings.CoreInBase.of_reaches (h : cfg.CoreInBase d) {n : String}
    (hr : d.Reaches [cfg.coreModule] n) : d.isBase n = true ∧ ∃ x, d.get? n = some x := by
  obtain ⟨core, hcore, closure, hclosure, hall⟩ := h
  obtain ⟨x, hx, hget⟩ := exists_mem_of_reaches (lookup_eq_ok_iff.1 hcore) hclosure hr
  exact ⟨name_of_get? hget ▸ hall x hx, x, hget⟩

namespace Casts

/-- The module sees all casts of the sorts that the user defined. -/
def Saturated (cfg : Settings) (d : Definition) (m : Module) (cs : Capabilities) : Prop :=
  ∃ user visible, d.userSentences m = .ok user ∧ d.visibleSentences m = .ok visible ∧
    ∀ p ∈ candidates cfg (definedSorts user.toList).toList cs, .production p ∈ visible

theorem extend?_eq_none_iff : extend? cfg d m cs = .ok none ↔ Saturated cfg d m cs := by
  constructor
  · intro h
    obtain ⟨new, hnew, ⟨rfl, -⟩ | ⟨-, hnone⟩⟩ := extend?_eq_ok_iff.1 h
    · obtain ⟨flat, hflat⟩ := exists_flatten_of_additions hnew
      have hu := userSentences_of_flatten hflat
      obtain ⟨visible, hv⟩ := exists_visibleSentences hflat
      refine ⟨_, visible, hu, hv, fun p hp => Decidable.byContradiction fun hunseen => ?_⟩
      exact List.not_mem_nil ((mem_additions hu hv hnew).2 ⟨hunseen, p, hp, rfl⟩)
    · cases hnone
  · intro h
    obtain ⟨user, visible, hu, hv, hall⟩ := h
    obtain ⟨new, hnew⟩ : ∃ new, additions cfg d m cs = .ok new := exists_additions hu hv
    have hnil : new = [] := by
      refine List.eq_nil_iff_forall_not_mem.2 fun x hx => ?_
      obtain ⟨hunseen, p, hp, rfl⟩ := (mem_additions hu hv hnew).1 hx
      exact hunseen (hall p hp)
    exact extend?_eq_ok_iff.2 ⟨new, hnew, .inl ⟨hnil, rfl⟩⟩

section Extended

variable {new : List Sentence} (hcore : ∀ n, d.Reaches [cfg.coreModule] n → d.isBase n = true)
  (htop : cfg.isReserved cfg.sorts.top = true) (hbottom : cfg.isReserved cfg.sorts.bottom = true)
  {flat flat' : Module} (h : d.flatten m = .ok flat)
  (h' : d.flatten ((m.addImport cfg.coreModule).extend new) = .ok flat')
  (hnew : additions cfg d m cs = .ok new)
include hcore htop hbottom h h' hnew

/-- Apart from reserved sorts, an extension defines no sort of the user that was not defined
before. -/
theorem definedSorts_extension {s : SortName} (hs : cfg.isReserved s = false)
    (hdef : s ∈ definedSorts flat'.sentences.toList) : s ∈ definedSorts flat.sentences.toList := by
  obtain ⟨y, hy, rfl⟩ := mem_definedSorts.1 hdef
  obtain ⟨visible, hv⟩ := exists_visibleSentences h
  rcases (mem_flat_extension_sentences h h').1 hy with hy | hy | ⟨x, ⟨hr, -, hown⟩, -⟩
  · exact mem_definedSorts.2 ⟨y, hy, rfl⟩
  · obtain ⟨-, q, hq, rfl⟩ := (mem_additions (userSentences_of_flatten h) hv hnew).1 hy
    obtain ⟨t, ht, -, hqt⟩ := mem_candidates.1 hq
    rcases sort_of_mem_ofSort hqt with hsort | hsort | hsort <;>
      simp only [Sentence.definedSort, hsort] at hs ⊢
    · exact ht
    · rw [htop] at hs; cases hs
    · rw [hbottom] at hs; cases hs
  · rw [hcore _ hr] at hown; cases hown

theorem saturated_extension : Saturated cfg d ((m.addImport cfg.coreModule).extend new) cs := by
  obtain ⟨visible, hv⟩ := exists_visibleSentences h
  obtain ⟨visible', hv'⟩ := exists_visibleSentences h'
  refine ⟨_, visible', userSentences_of_flatten h', hv', fun p hp => ?_⟩
  obtain ⟨s, hs, hfree, hps⟩ := mem_candidates.1 hp
  have hbefore := definedSorts_extension hcore htop hbottom h h' hnew hfree hs
  -- the cast was seen before, or it is one of those that were added
  refine (mem_visible_extension hv hv').2 ?_
  by_cases hseen : .production p ∈ visible
  · exact .inl hseen
  · refine .inr (.inl ((mem_additions (userSentences_of_flatten h) hv hnew).2 ⟨hseen, p, ?_, rfl⟩))
    exact mem_candidates.2 ⟨s, hbefore, hfree, hps⟩

end Extended

/-- **Cast synthesis is idempotent.** If the top and the bottom sort are reserved and the core
module reaches base modules only, nothing is added to a module that was extended, under the
capabilities under which it was: it sees all casts of its sorts. -/
theorem extension_saturated {extended : Option Module} (hcore : cfg.CoreInBase d)
    (htop : cfg.isReserved cfg.sorts.top = true)
    (hbottom : cfg.isReserved cfg.sorts.bottom = true)
    (h : extend? cfg d m cs = .ok extended) :
    extend? cfg d (extended.getD m) cs = .ok none ∧ Saturated cfg d (extended.getD m) cs := by
  obtain ⟨new, hnew, ⟨-, rfl⟩ | ⟨-, rfl⟩⟩ := extend?_eq_ok_iff.1 h
  · exact ⟨h, extend?_eq_none_iff.1 h⟩
  · obtain ⟨flat, hflat⟩ := exists_flatten_of_additions hnew
    obtain ⟨flat', hflat'⟩ :=
      exists_flatten_extension_iff.2 ⟨⟨flat, hflat⟩, fun n hr => (hcore.of_reaches hr).2⟩
    have hsaturated : Saturated cfg d ((m.addImport cfg.coreModule).extend new) cs :=
      saturated_extension (fun n hr => (hcore.of_reaches hr).1) htop hbottom hflat hflat' hnew
    exact ⟨extend?_eq_none_iff.2 hsaturated, hsaturated⟩

/-- The sample as a module that imports itself: it gets casts, and its extension, which reaches the
module without casts by its own name, gets none. -/
theorem extension_saturated_cyclic :
    let m : Module := { Sample.lambdaModule with imports := ["LAMBDA", "K"] }
    let d := (Settings.standardBase {}).push.insert m
    let cs : Capabilities := Catalog.ofList [.autoCasts, .topSort, .bottomSort]
    Settings.CoreInBase {} d ∧ d.Reaches m.imports m.name ∧
      ∃ extended, extend? {} d m cs = .ok (some extended) ∧
        extend? {} d extended cs = .ok none ∧ Saturated {} d extended cs := by
  intro m d cs
  have run : Settings.CoreInBase {} d ∧
      Settings.isReserved {} (Settings.sorts {}).top = true ∧
      Settings.isReserved {} (Settings.sorts {}).bottom = true ∧
      ∃ extended, extend? {} d m cs = .ok extended ∧ extended ≠ none := by
    decide +kernel
  obtain ⟨hcore, htop, hbottom, extended, hextended, hsome⟩ := run
  obtain ⟨e, rfl⟩ := Option.ne_none_iff_exists'.1 hsome
  exact ⟨hcore, .direct List.mem_cons_self, e, hextended,
    extension_saturated hcore htop hbottom hextended⟩

end Casts

end GrammarSynthesis
