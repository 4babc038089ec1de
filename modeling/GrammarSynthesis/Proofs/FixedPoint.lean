import GrammarSynthesis.Proofs.Assembly
import GrammarSynthesis.Proofs.Saturation

/-!
# Extensions of extensions

An extension has all casts that it may have, so it is its own extension, and its bundle is that of
the seed. The import of the core module brings in no sentence of the user and no marker, as long as
that module keeps apart from both.

* `Settings.CoreApart`: the core module reaches base modules only, and no marker;
* `capabilities_extension`: it has the capabilities of the module that was extended;
* `combine_extension`: the bundle of an extension is that of the seed.
-/
namespace GrammarSynthesis

open Definition

/-- The core module and all modules of its closure are base modules, and none of them is a marker. -/
def Settings.CoreApart (cfg : Settings) (d : Definition) : Prop :=
  ∃ core, d.lookup cfg.coreModule = .ok core ∧ ∃ closure, d.importClosure core = .ok closure ∧
    ∀ x ∈ core :: closure, d.isBase x.name = true ∧ x.name ∉ cfg.markers.map Prod.snd

instance (cfg : Settings) (d : Definition) : Decidable (cfg.CoreApart d) :=
  inferInstanceAs <| Decidable <|
    ∃ core, d.lookup cfg.coreModule = .ok core ∧ ∃ closure, d.importClosure core = .ok closure ∧
      ∀ x ∈ core :: closure, d.isBase x.name = true ∧ x.name ∉ cfg.markers.map Prod.snd

variable {cfg : Settings} {d : Definition} {m : Module} {cs : Capabilities} {new : List Sentence}

theorem Settings.CoreApart.of_reaches (h : cfg.CoreApart d) {n : String}
    (hr : d.Reaches [cfg.coreModule] n) :
    d.isBase n = true ∧ n ∉ cfg.markers.map Prod.snd := by
  obtain ⟨core, hcore, closure, hclosure, hall⟩ := h
  obtain ⟨x, hx, hget⟩ := exists_mem_of_reaches (lookup_eq_ok_iff.1 hcore) hclosure hr
  rw [← name_of_get? hget]
  exact hall x hx

/-! ## Capabilities -/

theorem capabilities_extension (hcore : cfg.CoreApart d) (hcs : cfg.capabilities d m = .ok cs)
    {flat' : Module} (h' : d.flatten ((m.addImport cfg.coreModule).extend new) = .ok flat') :
    cfg.capabilities d ((m.addImport cfg.coreModule).extend new) = .ok cs := by
  obtain ⟨closure', hc'⟩ := exists_flatten_iff.1 ⟨flat', h'⟩
  obtain ⟨cs', hcs'⟩ := exists_capabilities hc' cfg
  suffices cs' = cs by rw [hcs', this]
  ext c
  rw [mem_capabilities_iff hcs', mem_capabilities_iff hcs]
  refine exists_congr fun name => and_congr_right fun hmarker => and_congr_right fun _ => ?_
  rw [reaches_extension_iff]
  refine or_iff_left fun hr => (hcore.of_reaches hr).2 ?_
  exact List.mem_map.2 ⟨(c, name), hmarker, rfl⟩

/-! ## Bundles -/

namespace Synthesizer

/-- The stages give for an extension what they gave for the seed, and nothing is added to it. -/
theorem Stages.Made.extension {st : Stages} {a : Synthesizer} {seed : Module}
    (hcore : a.settings.CoreApart d)
    (htop : a.settings.isReserved a.settings.sorts.top = true)
    (hbottom : a.settings.isReserved a.settings.sorts.bottom = true) (h : st.Made a d seed) :
    Stages.Made { st with extended := none } a d (st.extended.getD seed) := by
  have hbase : ∀ n, d.Reaches [a.settings.coreModule] n → d.isBase n = true := fun n hr =>
    (hcore.of_reaches hr).1
  have hsame : a.settings.capabilities d (st.extended.getD seed) = .ok st.capabilities ∧
      Casts.extend? a.settings d (st.extended.getD seed) st.capabilities = .ok none := by
    have hflat := h.flat
    obtain ⟨new, hnew, ⟨-, he⟩ | ⟨-, he⟩⟩ := Casts.extend?_eq_ok_iff.1 h.extended
    · have hext := h.extended
      rw [he] at hext ⊢
      exact ⟨h.capabilities, hext⟩
    · rw [he, Option.getD_some] at hflat ⊢
      obtain ⟨flat, hseed⟩ := (exists_flatten_extension_iff.1 ⟨_, hflat⟩).1
      refine ⟨capabilities_extension hcore h.capabilities hflat, ?_⟩
      have hsaturated := Casts.saturated_extension hbase htop hbottom hseed hflat hnew
      exact Casts.extend?_eq_none_iff.2 hsaturated
  exact ⟨hsame.1, hsame.2, h.flat, h.loosened, h.vocabulary, h.closure⟩

/-- **Assembling an extension is a fixed point.** If the top and the bottom sort are reserved and
the core module keeps apart from the user and from markers, the extension of a bundle is assembled
to a bundle with the same modules. Nothing is added to the extension, and a parser and a
disambiguation of trees see the same as before. -/
theorem combine_extension {a : Synthesizer} {seed : Module} {b : Bundle}
    (hcore : a.settings.CoreApart d)
    (htop : a.settings.isReserved a.settings.sorts.top = true)
    (hbottom : a.settings.isReserved a.settings.sorts.bottom = true)
    (h : a.combine d seed = .ok b) :
    ∃ again, a.combine d b.extension = .ok again ∧ again.seed = b.extension ∧
      again.extended = none ∧ again.extension = b.extension ∧
      again.disambiguation = b.disambiguation ∧ again.parse = b.parse ∧
      (∃ visible, again.parseSentences = .ok visible ∧ b.parseSentences = .ok visible) ∧
      ∃ visible, again.disambiguationSentences = .ok visible ∧
        b.disambiguationSentences = .ok visible := by
  obtain ⟨st, made, rfl⟩ := combine_eq_ok_iff.1 h
  have hagain := made.extension hcore htop hbottom
  obtain ⟨_, -, hclosures⟩ := made.importClosure_bundle
  have seen : ∀ m, m = (st.bundle a d seed).disambiguation ∨ m = (st.bundle a d seed).parse →
      ∃ visible, (st.bundle a d seed).definition.visibleSentences m = .ok visible := fun m hm =>
    ⟨_, Outcome.map_eq_ok_iff.2 ⟨_, hclosures m hm, rfl⟩⟩
  obtain ⟨parsed, hparsed⟩ := seen _ (.inr rfl)
  obtain ⟨visible, hvisible⟩ := seen _ (.inl rfl)
  -- the second bundle differs from the first in its seed only
  exact ⟨_, combine_eq_ok_iff.2 ⟨_, hagain, rfl⟩, rfl, rfl, rfl, rfl, rfl, ⟨parsed, hparsed, hparsed⟩,
    visible, hvisible, hvisible⟩

/-- The sample's grammar for rules: the seed gets casts, its extension gets none. -/
theorem combine_extension_lambda :
    ∃ a, create {} (Settings.standardBase {}) false = .ok a ∧
      a.settings.CoreApart (a.emptyDefinition.insert Sample.lambdaModule) ∧
      ∃ seed, a.seed (a.emptyDefinition.insert Sample.lambdaModule) "LAMBDA" .rule = .ok seed ∧
      ∃ b, a.combine (a.emptyDefinition.insert Sample.lambdaModule) seed = .ok b ∧
      b.extended ≠ none ∧
      ∃ again, a.combine (a.emptyDefinition.insert Sample.lambdaModule) b.extension = .ok again ∧
        again.extended = none ∧ again.parse = b.parse := by
  have run : ∃ a, create {} (Settings.standardBase {}) false = .ok a ∧
      a.settings.CoreApart (a.emptyDefinition.insert Sample.lambdaModule) ∧
      a.settings.isReserved a.settings.sorts.top = true ∧
      a.settings.isReserved a.settings.sorts.bottom = true ∧
      ∃ seed, a.seed (a.emptyDefinition.insert Sample.lambdaModule) "LAMBDA" .rule = .ok seed ∧
      ∃ b, a.combine (a.emptyDefinition.insert Sample.lambdaModule) seed = .ok b ∧
      b.extended ≠ none := by
    decide +kernel
  obtain ⟨a, ha, hcore, htop, hbottom, seed, hseed, b, hb, hextended⟩ := run
  obtain ⟨again, hagain, -, hnone, -, -, hparse, -⟩ := combine_extension hcore htop hbottom hb
  exact ⟨a, ha, hcore, seed, hseed, b, hb, hextended, again, hagain, hnone, hparse⟩

end Synthesizer

end GrammarSynthesis
