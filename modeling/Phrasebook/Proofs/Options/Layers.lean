import Phrasebook.Localizer

namespace Phrasebook

variable {ι α : Type}

namespace Setting

def speaks : Setting α → Bool
  | unset => false
  | cleared | set _ => true

-- The value of the uppermost layer that speaks of the field. Layers are listed from the lowest up.
def topmost? (layers : List (Setting α)) : Option α :=
  (layers.reverse.find? speaks).bind value?

@[simp]
theorem under_unset (s : Setting α) : s.under unset = s :=
  rfl

@[simp]
theorem under_cleared (s : Setting α) : s.under cleared = unset :=
  rfl

@[simp]
theorem under_set (s : Setting α) (a : α) : s.under (set a) = set a :=
  rfl

theorem topmost?_cons (b : Setting α) (layers : List (Setting α)) :
    topmost? (b :: layers) = (layers.reverse.find? speaks).elim b.value? value? := by
  simp only [topmost?, List.reverse_cons, List.find?_append]
  cases layers.reverse.find? speaks
  case none => cases b <;> rfl
  case some => rfl

theorem topmost?_cons_under (b s : Setting α) (layers : List (Setting α)) :
    topmost? (b.under s :: layers) = topmost? (b :: s :: layers) := by
  simp only [topmost?_cons, List.reverse_cons, List.find?_append]
  cases layers.reverse.find? speaks
  case none => cases s <;> rfl
  case some => rfl

theorem value?_foldl_under (b : Setting α) (layers : List (Setting α)) :
    (layers.foldl under b).value? = topmost? (b :: layers) := by
  induction layers generalizing b
  case nil => exact (topmost?_cons b []).symm
  case cons s layers ih => rw [List.foldl_cons, ih, topmost?_cons_under]

-- Two layers that are laid over each other first come to something else only where the upper one
-- clears the field and nothing above speaks of it.
theorem value?_under_under_iff (b s u c : Setting α) :
    ((b.under (s.under u)).under c).value? = (((b.under s).under u).under c).value? ↔
      ¬ (u = .cleared ∧ c = .unset ∧ ∃ a, b = .set a) := by
  cases c <;> cases u <;> simp
  case unset.cleared => cases b <;> simp [value?]

end Setting

namespace Options

inductive Field where
  | nsSeparator
  | contextSeparator
  | pluralSeparator
  | pluralSuffix
  | keySeparator
  | opening
  | closing
  | formatSeparator
  | rawMark
  | escapes
  | nestOpening
  | nestClosing
  | nestSeparator
  | depthLimit
  | fallbacks
  | formats
  | onMissing
  | onFailure

def Field.Content (ι : Type) : Field → Type
  | escapes => Bool
  | depthLimit => Int
  | fallbacks => List String
  | formats => Members ι
  | onMissing => ι
  | onFailure => OnFailure ι
  | _ => String

def get (o : Options ι) : (f : Field) → Setting (f.Content ι)
  | .nsSeparator => o.nsSeparator
  | .contextSeparator => o.contextSeparator
  | .pluralSeparator => o.pluralSeparator
  | .pluralSuffix => o.pluralSuffix
  | .keySeparator => o.keySeparator
  | .opening => o.opening
  | .closing => o.closing
  | .formatSeparator => o.formatSeparator
  | .rawMark => o.rawMark
  | .escapes => o.escapes
  | .nestOpening => o.nestOpening
  | .nestClosing => o.nestClosing
  | .nestSeparator => o.nestSeparator
  | .depthLimit => o.depthLimit
  | .fallbacks => o.fallbacks
  | .formats => o.formats
  | .onMissing => o.onMissing
  | .onFailure => o.onFailure

@[simp]
theorem get_merge (lower upper : Options ι) (f : Field) :
    (lower.merge upper).get f = (lower.get f).under (upper.get f) := by
  cases f <;> rfl

theorem get_empty (f : Field) : ({} : Options ι).get f = .unset := by
  cases f <;> rfl

@[simp]
theorem get_merge? (lower : Options ι) (upper : Option (Options ι)) (f : Field) :
    (lower.merge? upper).get f = (lower.get f).under ((upper.getD {}).get f) := by
  cases upper
  case none => simp [merge?, get_empty]
  case some upper => exact lower.get_merge upper f

theorem exists_get_base_eq_set {f : Field} (h : f ≠ .onMissing) :
    ∃ a, (base : Options ι).get f = .set a := by
  cases f
  case onMissing => exact absurd rfl h
  all_goals exact ⟨_, rfl⟩

end Options

namespace Localizer

open Options

theorem outcome_create {host : Host ι} {settings : Settings} {o : Option (Options ι)}
    {locale : Locale} (h : (Locale.parse settings.defaultLocale).toOption = some locale) :
    (create host settings o).outcome = .done ⟨locale, host, settings.options.merge? o⟩ := by
  cases hp : Locale.parse settings.defaultLocale
  case error =>
    rw [hp] at h
    cases h
  case ok l =>
    rw [hp] at h
    cases h
    simp only [create, hp]
    rfl

theorem options_of_create {host : Host ι} {settings : Settings} {o : Option (Options ι)}
    {l : Localizer ι} (h : (create host settings o).outcome = .done l) :
    l.options = settings.options.merge? o := by
  have ⟨_, _, h⟩ := Run.outcome_bind_eq_done_iff.1 h
  have ⟨_, _, h⟩ := Run.outcome_bind_eq_done_iff.1 h
  cases h
  rfl

theorem get_effective (l : Localizer ι) (o : Option (Options ι)) (f : Field) :
    (l.effective o).get f =
      (((base : Options ι).get f).under (l.options.get f)).under ((o.getD {}).get f) := by
  simp [effective]

-- Laid over the base one by one, the settings, the options of the installation and those of the
-- call come to the uppermost layer that speaks of a field. The localizer comes to the same unless
-- the options of the installation clear the field, the call leaves it open, and the base sets it.
-- Then the base shows through.
theorem effective_eq_layers_iff {host : Host ι} {settings : Settings} {o : Option (Options ι)}
    {l : Localizer ι} (hl : (create host settings o).outcome = .done l) {q : Query ι}
    {r : Request ι} (hr : l.request q = .ok r) (f : Field) :
    let layered := ((base.merge settings.options).merge? o).merge? q.options
    let upper := (o.getD {}).get f
    let call := (q.options.getD {}).get f
    (layered.get f).value? =
      Setting.topmost? [(base : Options ι).get f, settings.options.get f, upper, call] ∧
    ((r.options.get f).value? = (layered.get f).value? ↔
      ¬ (upper = .cleared ∧ call = .unset ∧ f ≠ .onMissing)) ∧
    (upper = .cleared ∧ call = .unset → r.options.get f = (base : Options ι).get f) := by
  intro layered upper call
  have he : r.options.get f =
      (((base : Options ι).get f).under ((settings.options.get f).under upper)).under call := by
    rw [options_of_request hr, get_effective, options_of_create hl, get_merge?]
  have hlayered : layered.get f =
      ((((base : Options ι).get f).under (settings.options.get f)).under upper).under call := by
    simp [layered, upper, call]
  have hb : (∃ a, (base : Options ι).get f = .set a) ↔ f ≠ .onMissing := by
    refine ⟨?_, exists_get_base_eq_set⟩
    rintro ⟨a, ha⟩ rfl
    cases ha
  refine ⟨?_, ?_, ?_⟩
  · rw [hlayered]
    exact Setting.value?_foldl_under _ [_, upper, call]
  · rw [he, hlayered, Setting.value?_under_under_iff, hb]
  · rintro ⟨hu, hc⟩
    rw [he, hu, hc]
    rfl

theorem effective_eq_layers_of_call :
    let o : Options Empty := { depthLimit := .cleared, rawMark := .set "!" }
    let l : Localizer Empty := ⟨⟨"en", none⟩, .ofTemplates [], ({} : Settings).options.merge o⟩
    let q : Query Empty := ⟨"k", none, none, none, [], some { depthLimit := .set 3 }⟩
    let r : Request Empty := ⟨"k", ⟨"en", none⟩, [], l.effective q.options⟩
    (create l.host {} (some o)).outcome = .done l ∧ l.request q = .ok r ∧
      (r.options.get .depthLimit).value? =
        ((((base.merge ({} : Settings).options).merge o).merge? q.options).get .depthLimit).value?
      := by
  intro o l q r
  have hp : (Locale.parse ({} : Settings).defaultLocale).toOption = some l.locale := by
    decide +kernel
  have hl : (create l.host {} (some o)).outcome = .done l := outcome_create hp
  have hr : l.request q = .ok r := rfl
  exact ⟨hl, hr, (effective_eq_layers_iff hl hr .depthLimit).2.1.2 nofun⟩

theorem cleared_handler_shows_through :
    let o : Options Empty := { onFailure := .cleared }
    let host := Host.ofTemplates [("k", "\x7b\x7bx\x7d\x7d")]
    let l : Localizer Empty := ⟨⟨"en", none⟩, host, ({} : Settings).options.merge o⟩
    let q : Query Empty := ⟨"ns:k", none, none, none, [], none⟩
    let r : Request Empty := ⟨"ns:k", ⟨"en", none⟩, [], l.effective q.options⟩
    (create host {} (some o)).outcome = .done l ∧ l.request q = .ok r ∧
      (r.options.get .onFailure).value? ≠
        ((((base.merge ({} : Settings).options).merge o).merge? q.options).get .onFailure).value? ∧
      (l.text? q).outcome = .done none := by
  intro o host l q r
  have hp : (Locale.parse ({} : Settings).defaultLocale).toOption = some l.locale := by
    decide +kernel
  exact ⟨outcome_create hp, rfl, nofun, by decide +kernel⟩

end Localizer
end Phrasebook
