import Phrasebook.Localizer
import Phrasebook.Proofs.Resolution.Fuel

namespace Phrasebook

variable {ι : Type}

def Host.Contains (host : Host ι) (o : Options ι) : Prop :=
  ∃ handler, o.onFailure.value? = some handler ∧
    ∀ name, handler = .handler name →
      ∀ l ns key bag failure, ∃ reply, host.failed name l ns key bag o failure = .ok reply

namespace Resolution

open Template

variable {deeper : Scope → Resolver ι} {site : Site ι} {limit : Int} {ns key : String} {bag : Bag}

theorem recover_ends (hh : site.host.Contains site.options) {failure : Failure} :
    (recover site ns key bag failure).Ends := by
  have ⟨handler, ho, hf⟩ := hh
  simp only [recover, ho]
  cases handler
  case warn => exact .bind ⟨(), rfl⟩ fun _ => .bind ⟨(), rfl⟩ fun _ => .pure
  case handler name =>
    have ⟨reply, hr⟩ := hf name rfl site.locale ns key bag failure
    exact .bind ⟨(), rfl⟩ fun _ => ⟨reply, Run.outcome_ofExcept_eq_done_iff.2 hr⟩

theorem search_ends (hh : site.host.Contains site.options)
    (hf : ∀ ns key, (find deeper site ns key bag).Fed) (places : List (String × String)) :
    (search deeper site bag places).Ends := by
  induction places
  case nil => exact .pure
  case cons place places ih =>
    simp only [search]
    split
    case isTrue => exact .bind ⟨(), rfl⟩ fun _ => .pure
    case isFalse =>
      refine (Run.Ends.attempt (hf place.1 place.2)).bind fun r => ?_
      cases r
      case error => exact (recover_ends hh).map
      case ok found =>
        cases found
        case none => exact ih
        case some => exact .pure

theorem resolveIn_ends (hh : site.host.Contains site.options)
    (hd : StarveBelow (fun _ => False) deeper site) : (resolveIn deeper site ns key bag).Ends := by
  refine candidates_ends.bind fun keys => ?_
  refine (search_ends hh (fun _ _ => (find_starvesAt hd).fed) _).bind fun settled => ?_
  cases settled
  case none => exact .bind ⟨(), rfl⟩ fun _ => .pure
  case some => exact .pure

-- Each open template leaves room for one level less below it.
theorem level_ends {host : Host ι} {o : Options ι} (hh : host.Contains o)
    (hl : o.depthLimit.value? = some limit) {n : Nat} {scope : Scope} (hn : 0 < n)
    (hle : limit - scope.chain.length ≤ n) (raw : String) (l : Locale) (bag : Bag) :
    (level host n scope raw l bag o).Ends := by
  obtain _ | n := n
  · omega
  · let site : Site ι := ⟨host, l, o, scope.chain⟩
    have hs : site.host.Contains site.options := hh
    refine resolveIn_ends hs fun frame hr ns raw own => .inr (.of_fed ?_)
    have hlt : (site.enter frame).chain.length < limit := hr limit hl
    have hc : (site.enter frame).chain.length = scope.chain.length + 1 := by
      simp [site, Site.enter]
    have hle : limit - (site.enter frame).chain.length ≤ n := by omega
    exact level_fed hl (by omega) hle raw own

theorem resolver_ends {host : Host ι} {o : Options ι} (hh : host.Contains o)
    (hl : o.depthLimit.value? = some limit) (scope : Scope) (raw : String) (l : Locale)
    (bag : Bag) : (resolver host scope raw l bag o).Ends := by
  have hf : fuel o scope.chain = max 1 (limit - scope.chain.length).toNat := by simp only [fuel, hl]
  exact level_ends hh hl (by omega) (by omega) raw l bag

end Resolution

namespace Localizer

open Resolution

section Answer

variable {l : Localizer ι} {q : Query ι} {r : Request ι}

def resolution (l : Localizer ι) (r : Request ι) : Run (Event ι) (Option String) :=
  resolver l.host {} r.key r.locale r.bag r.options

theorem answer_eq : l.answer r = ⟨(l.resolution r).events ++
    if (l.resolution r).outcome = .done none then
      [⟨[], .notice (.unresolved r.key r.locale.tag)⟩] else [], (l.resolution r).outcome⟩ := by
  change (l.resolution r >>= _) = _
  obtain ⟨events, found | failure | _⟩ := l.resolution r
  case done =>
    cases found
    case none => rfl
    case some => rfl
  case raised => simp [Run.bind_eq, Run.bind]
  case starved => simp [Run.bind_eq, Run.bind]

theorem text?_of_request (hr : l.request q = .ok r) : l.text? q = l.answer r := by
  simp only [text?, hr, Run.ofExcept, pure_bind]

def instead (l : Localizer ι) (r : Request ι) (key : String)
    (orElse : Option (String → Except Failure (Option String))) :
    Run (Event ι) (Option String) :=
  match orElse, r.options.onMissing.value? with
  | some producer, _ => do
    Run.emit ⟨[], .fallback key⟩
    Run.ofExcept (producer key)
  | none, some handler => do
    Run.emit ⟨[], .miss handler r.locale key r.bag r.options⟩
    let s ← Run.ofExcept (l.host.missing handler r.locale key r.bag r.options)
    return some (s.getD key)
  | none, none => return some key

theorem text_of_request {orElse : Option (String → Except Failure (Option String))}
    (hr : l.request q = .ok r) :
    l.text q orElse =
      l.answer r >>= fun found => found.elim (l.instead r q.key orElse) fun s => pure (some s) := by
  simp only [text, hr, Run.ofExcept, pure_bind]
  refine bind_congr fun found => ?_
  cases found
  case some => rfl
  case none => rfl

end Answer

theorem answer_ends {l : Localizer ι} {r : Request ι} {limit : Int} (hh : l.host.Contains r.options)
    (hl : r.options.depthLimit.value? = some limit) : (l.answer r).Ends := by
  refine (resolver_ends hh hl _ _ _ _).bind fun found => ?_
  cases found
  case none => exact .bind ⟨(), rfl⟩ fun _ => .pure
  case some => exact .pure

theorem exists_request_eq_ok (l : Localizer ι) {q : Query ι}
    (hq : ∀ text, q.locale = some (.tag text) → ∃ locale, Locale.parse text = .ok locale) :
    ∃ r, l.request q = .ok r := by
  have ⟨locale, hl⟩ : ∃ locale, (q.locale.getD (.locale l.locale)).read = .ok locale := by
    match h : q.locale with
    | none => exact ⟨l.locale, rfl⟩
    | some (.locale locale) => exact ⟨locale, rfl⟩
    | some (.tag text) => exact hq text h
  simp only [request, Request.build, hl]
  exact ⟨_, rfl⟩

def reply (l : Localizer ι) (r : Request ι) (key : String) : Except Failure (Option String) :=
  match r.options.onMissing.value? with
  | some handler => l.host.missing handler r.locale key r.bag r.options
  | none => .ok none

theorem outcome_instead {l : Localizer ι} {r : Request ι} {key : String} {reply : Option String}
    (hm : l.reply r key = .ok reply) :
    (l.instead r key none).outcome = .done (some (reply.getD key)) := by
  simp only [Localizer.reply] at hm
  split at hm
  case h_1 handler ho =>
    simp only [instead, ho, hm]
    rfl
  case h_2 ho =>
    cases hm
    simp only [instead, ho]
    rfl

theorem outcome_text_of_answer {l : Localizer ι} {q : Query ι} {r : Request ι}
    {found reply : Option String} (hr : l.request q = .ok r)
    (ha : (l.answer r).outcome = .done found) (hm : l.reply r q.key = .ok reply) :
    (l.text q).outcome = .done (some ((found <|> reply).getD q.key)) := by
  rw [text_of_request hr]
  refine Run.outcome_bind_eq_done_iff.2 ⟨found, ha, ?_⟩
  cases found
  case some => rfl
  case none => exact outcome_instead hm

-- However templates, the store and formatters fail, the call has a text or none; and what is shown
-- is that text, or else what the handler for missing keys says, or else the key as it was given.
theorem failures_contained (l : Localizer ι) (q : Query ι) {limit : Int}
    (hq : ∀ text, q.locale = some (.tag text) → ∃ locale, Locale.parse text = .ok locale)
    (hl : (l.effective q.options).depthLimit.value? = some limit)
    (hh : l.host.Contains (l.effective q.options)) :
    ∃ r found, l.request q = .ok r ∧ (l.text? q).outcome = .done found ∧
      ∀ reply, l.reply r q.key = .ok reply →
        (l.text q).outcome = .done (some ((found <|> reply).getD q.key)) := by
  have ⟨r, hr⟩ := l.exists_request_eq_ok hq
  have ho := options_of_request hr
  have ⟨found, ha⟩ := answer_ends (ho ▸ hh) (ho ▸ hl)
  refine ⟨r, found, hr, text?_of_request hr ▸ ha, fun reply hm => ?_⟩
  exact outcome_text_of_answer hr ha hm

theorem broken_box_contained :
    let templates : Members String := [("page", "Hi $t(box)"), ("box", "\x7b\x7bn, loud\x7d\x7d")]
    let host : Host Unit :=
      { retrieve _ _ key _ :=
          if key = "lost" then .error (.host "LookupError" "no store") else .ok (templates.get? key)
        format _ _ _ _ _ := .error (.host "ValueError" "too loud")
        missing _ l key _ _ := .ok (some (l.tag ++ "|" ++ key))
        failed _ _ _ _ _ _ _ := .ok none
        rules := [] }
    let l : Localizer Unit :=
      ⟨⟨"en", none⟩, host, { formats := .set [("loud", ())], onMissing := .set () }⟩
    let q (key : String) : Query Unit :=
      ⟨key, some (.tag "de-AT"), none, none, [("n", .int 1)], none⟩
    (l.text (q "page")).outcome = .done (some "de-AT|page") ∧
      (l.text (q "lost")).outcome = .done (some "de-AT|lost") := by
  intro templates host l q
  have hp : Locale.parse "de-AT" = .ok ⟨"de", some "AT"⟩ := by rfl
  have hq (key : String) : ∀ text, (q key).locale = some (.tag text) →
      ∃ locale, Locale.parse text = .ok locale := by
    rintro _ ⟨⟩
    exact ⟨_, hp⟩
  have hh (key : String) : l.host.Contains (l.effective (q key).options) :=
    ⟨.warn, rfl, fun _ h => nomatch h⟩
  have h (key : String) (hn : (l.text? (q key)).outcome = .done none) :
      (l.text (q key)).outcome = .done (some ("de-AT" ++ "|" ++ key)) := by
    have ⟨r, found, hr, hf, ht⟩ := failures_contained l (q key) (hq key) rfl (hh key)
    cases hn.symm.trans hf
    simp only [request, q, Option.getD_some, Request.build, Locale.Given.read, hp] at hr
    cases hr
    exact ht _ rfl
  exact ⟨h "page" (by decide +kernel), h "lost" (by decide +kernel)⟩

end Localizer
end Phrasebook
