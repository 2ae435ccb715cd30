import Phrasebook.Proofs.Catalog.Entries
import Phrasebook.Proofs.Key.Splitting
import Phrasebook.Proofs.Resolution.Constancy

namespace Phrasebook

variable {ι : Type}

theorem Resolution.Lookup.resolveIn_of_plain {deeper : Scope → Template.Resolver ι} {u : Lookup ι}
    {text : String} (hc : u.bag.context? = none) (hn : u.bag.count? = none)
    (ho : u.frame ∉ u.site.chain) (ht : u.stored = .ok (some text))
    (hp : u.site.options.Plain text) :
    resolveIn deeper u.site u.ns u.key u.bag =
      ⟨[u.retrieval, u.opening text], .done (some text)⟩ := by
  have hr : u.rendering deeper = _ := rendering_of_plain ht hp
  have hs : u.stored ≠ .ok none := ht ▸ nofun
  rw [resolveIn_of_bare hc hn ho hs, hr]
  rw [hr]
  nofun

def Query.variables (q : Query ι) : Bag :=
  let bag := q.context.elim q.bag (q.bag.put "context")
  q.count.elim bag (bag.put "count")

namespace Localizer

open Resolution

theorem request_of_read {l : Localizer ι} {q : Query ι} {locale : Locale}
    (h : (q.locale.getD (.locale l.locale)).read = .ok locale) :
    l.request q = .ok ⟨q.key, locale, q.variables, l.effective q.options⟩ := by
  simp only [request, Request.build, h]
  rfl

-- The text does not depend on anything else that the catalog holds, under this key or others, nor on
-- what the localizer would fall back to, and not even on a limit that leaves no room for a level.
theorem added_text_comes_back (l : Localizer ι) (c : Catalog) {given asked : Locale.Given}
    {locale : Locale} {ns separator key text : String} {q : Query ι}
    (hg : given.read = .ok locale) (ha : asked.read = .ok locale) (hq : q.locale = some asked)
    (hs : separator ≠ "") (ho : (l.effective q.options).nsSeparator.value? = some separator)
    (hf : ∀ front, front ++ separator.toList <+: (ns ++ separator ++ key).toList →
      ns.length ≤ front.length)
    (hk : q.key = ns ++ separator ++ key) (hc : q.variables.context? = none)
    (hn : q.variables.count? = none) (hp : (l.effective q.options).Plain text) :
    ∃ c', c.add given ns key (.text text) = .ok c' ∧
      let l' : Localizer ι := { l with host := l.host.withCatalog c' }
      let frame : Frame := ⟨ns, key, none⟩
      let run : Run (Event ι) (Option String) :=
        ⟨[⟨[], .retrieve locale ns key (l.effective q.options)⟩,
          ⟨[frame], .render frame text q.variables⟩], .done (some text)⟩
      l'.text? q = run ∧ ∀ orElse, l'.text q orElse = run := by
  obtain ⟨c', hadd, hr⟩ := c.retrieve_add hg ns key text
  refine ⟨c', hadd, ?_⟩
  intro l' frame run
  let o := l.effective q.options
  let r : Request ι := ⟨q.key, locale, q.variables, o⟩
  let u : Lookup ι := ⟨⟨l'.host, locale, o, []⟩, ns, key, q.variables⟩
  have hreq : l'.request q = .ok r := request_of_read (by rw [hq]; exact ha)
  have hres : l'.resolution r = run := by
    have ht : u.stored = .ok (some text) := congrArg Except.ok (hr o)
    obtain ⟨n, hn'⟩ := Nat.exists_eq_add_one.2 (fuel_pos o [])
    have hkey : Key.parse q.key o.nsSeparator.value? = ⟨some ns, key, separator⟩ :=
      hk ▸ ho ▸ Key.parse_of_first hs hf
    have hl : l'.resolution r = resolveIn (level l'.host n) u.site u.ns u.key u.bag := by
      simp only [resolution, resolver, r, hn', level, resolve, hkey]
      rfl
    rw [hl, Lookup.resolveIn_of_plain hc hn List.not_mem_nil ht hp]
    simp only [Lookup.retrieval, Lookup.opening, Lookup.inner, Lookup.frame, Site.enter, u, hc]
    rfl
  have hans : l'.answer r = run := by
    rw [answer_eq, hres]
    rfl
  refine ⟨text?_of_request hreq ▸ hans, fun orElse => ?_⟩
  rw [text_of_request hreq, hans]
  rfl

theorem unfinished_tokens_come_back :
    let c : Catalog := ⟨[("en-US", [("talk", [("a", .object [("b:c", .text "old")]),
      ("a.b:c", .text "older")])])]⟩
    let host : Host Empty := .ofTemplates []
    let l : Localizer Empty := ⟨⟨"de", none⟩, host, { fallbacks := .set ["talk"] }⟩
    let q : Query Empty := ⟨"talk:a.b:c", some (.tag "en-US"), none, none, [("n", .int 1)], none⟩
    let text := "\x7d\x7d $t(\x7b) \x7b\x7b"
    ∃ c', c.add (.tag " en_US ") "talk" "a.b:c" (.text text) = .ok c' ∧
      let l' : Localizer Empty := { l with host := host.withCatalog c' }
      (l'.text? q).outcome = .done (some text) ∧ (l'.text q).outcome = .done (some text) := by
  intro c host l q text
  have hg : (Locale.Given.tag " en_US ").read = .ok ⟨"en", some "US"⟩ := by rfl
  have ha : (Locale.Given.tag "en-US").read = .ok ⟨"en", some "US"⟩ := by rfl
  have hcut : Text.cut? ":".toList ("talk" ++ ":" ++ "a.b:c").toList =
      some ("talk".toList, "a.b:c".toList) := by decide
  have hf : ∀ front, front ++ ":".toList <+: ("talk" ++ ":" ++ "a.b:c").toList →
      "talk".length ≤ front.length := fun _ => Text.length_le_of_cut? hcut
  have hp : (l.effective q.options).Plain text := ⟨by decide +kernel, by decide +kernel⟩
  have ⟨c', hadd, ht, hor⟩ :=
    added_text_comes_back l c hg ha rfl (by decide) rfl hf rfl rfl rfl hp
  exact ⟨c', hadd, congrArg Run.outcome ht, congrArg Run.outcome (hor none)⟩

end Localizer
end Phrasebook
