import Phrasebook.Proofs.Resolution.Breaks

namespace Phrasebook

variable {ι : Type}

namespace Resolution

open Template

-- What is known of the levels that are left, deepest first, after some events without any handling.
structure Unwound (host : Host ι) (n : Nat) (site : Site ι) (bag : Bag) (front : List (Event ι))
    (stops : List (Stop ι)) : Prop where
  -- Each depth up to the failure is left once.
  depths : stops.map (·.site.chain.length) = (List.range' site.chain.length stops.length).reverse
  -- The depth apart, all levels have the same in common.
  common : ∀ s ∈ stops, s.site = { site with chain := s.site.chain }
  -- The last level that is left is the one where the run began.
  top : ∀ below s, stops = below ++ [s] → s.site = site ∧ s.bag = bag
  -- The first one is left for a failure of its own, with which all work ends.
  bottom : ∀ s above, stops = s :: above →
    ∃ before step, front = before ++ s.retrieval :: step ∧
      OwnFailure (level host (n - stops.length)) s.toLookup step s.failure
  -- A level is left in the rendering of the last template that it looked for.
  broke : ∀ below s above, stops = below ++ s :: above →
    ∃ before after, front = before ++ s.retrieval :: after ∧
      (∀ e ∈ after, e.Works s.inner.chain) ∧
      s.rendering (level host (n - (above.length + 1))) =
        ⟨after ++ unwinding below, .raised s.failure⟩
  -- Except for the first one, it is left there for the nested key that is one level deeper.
  nested : ∀ below t s above, stops = below ++ t :: s :: above →
    t.site = s.inner ∧ ∃ template filled earlier content,
      AtNested (level host (n - (above.length + 1))) s.toLookup template filled earlier content
        t.bag ∧
      s.nesting content t.bag ∈ front ∧
      PassedOn (s.refusal filled content (.nestedMissing (s.nestedOf content).key))
        t.handling.outcome s.failure

variable {host : Host ι} {n : Nat} {site : Site ι} {bag : Bag} {front : List (Event ι)}
  {stops : List (Stop ι)} {s : Stop ι}

theorem eq_append_cons_of_concat {α : Type} {l below above : List α} {a b : α}
    (h : l ++ [a] = below ++ b :: above) :
    (l = below ∧ a = b ∧ above = []) ∨
      ∃ higher, above = higher ++ [a] ∧ l = below ++ b :: higher := by
  rcases List.eq_nil_or_concat above with rfl | ⟨higher, c, rfl⟩
  case inl =>
    have ⟨hl, ha⟩ := List.append_inj' h rfl
    exact .inl ⟨hl, List.singleton_inj.1 ha, rfl⟩
  case inr =>
    rw [List.concat_eq_append, ← List.cons_append, ← List.append_assoc] at h
    have ⟨hl, ha⟩ := List.append_inj' h rfl
    rw [List.concat_eq_append, List.singleton_inj.1 ha]
    exact .inr ⟨higher, rfl, hl⟩

theorem Unwound.nil : Unwound host n site bag front [] where
  depths := rfl
  common := List.forall_mem_nil _
  top _ _ h := by simp at h
  bottom _ _ h := nomatch h
  broke _ _ _ h := by simp at h
  nested _ _ _ _ h := by simp at h

section Level

variable {u : Lookup ι} {before after : List (Event ι)}

theorem Lookup.works (hb : ∀ e ∈ before, e.WorksAt u.site.chain)
    (ha : ∀ e ∈ after, e.Works u.inner.chain) :
    ∀ e ∈ before ++ u.retrieval :: after, e.Works u.site.chain := by
  refine List.forall_mem_append.2 ⟨fun e he => (hb e he).works, ?_⟩
  refine List.forall_mem_cons.2 ⟨u.retrieval_worksAt.works, fun e he => ?_⟩
  exact (ha e he).outward u.chain_prefix_inner

end Level

theorem Broken.works (h : Broken host n site bag front stops s) :
    ∀ e ∈ front, e.Works site.chain := by
  induction h
  case own hb hs _ _ => exact Lookup.works hb hs
  case nested hb hs _ _ _ _ _ ih =>
    exact Lookup.works hb (List.forall_mem_append.2 ⟨hs, ih⟩)

theorem Unwound.of_own {u : Lookup ι} {failure : Failure} {before step : List (Event ι)}
    (hs : ∀ e ∈ step, e.Works u.inner.chain)
    (hr : u.rendering (level host n) = ⟨step, .raised failure⟩)
    (hf : OwnFailure (level host n) u step failure) :
    Unwound host (n + 1) u.site u.bag (before ++ u.retrieval :: step) [⟨u, failure⟩] where
  depths := rfl
  common := List.forall_mem_singleton.2 rfl
  top below s h := by
    have h : [] ++ [_] = below ++ [s] := h
    obtain ⟨_, hs⟩ := List.append_inj' h rfl
    cases hs
    exact ⟨rfl, rfl⟩
  bottom s above h := by
    cases h
    exact ⟨before, step, rfl, hf⟩
  broke below s above h := by
    obtain ⟨rfl, h⟩ | ⟨_, _, h⟩ := List.cons_eq_append_iff.1 h
    case inl =>
      cases h
      exact ⟨before, step, rfl, hs, by simpa [unwinding] using hr⟩
    case inr => simp at h
  nested below t s above h := by
    obtain ⟨rfl, h⟩ | ⟨_, _, h⟩ := List.cons_eq_append_iff.1 h
    case inl => cases h
    case inr => simp at h

theorem Unwound.concat {u : Lookup ι} {failure : Failure} {before step front : List (Event ι)}
    {template filled : String} {earlier : List (List Char)} {content : List Char} {own : Bag}
    (hs : ∀ e ∈ step, e.Works u.inner.chain) (hf : ∀ e ∈ front, e.Works u.inner.chain)
    (hr : u.rendering (level host n) =
      ⟨step ++ (front ++ unwinding (stops ++ [s])), .raised failure⟩)
    (he : step = u.calling (level host n) template filled earlier content own [])
    (ha : AtNested (level host n) u template filled earlier content own)
    (hp : PassedOn (u.refusal filled content (.nestedMissing (u.nestedOf content).key))
      s.handling.outcome failure)
    (h : Unwound host n u.inner own front (stops ++ [s])) :
    Unwound host (n + 1) u.site u.bag (before ++ u.retrieval :: (step ++ front))
      (stops ++ [s] ++ [⟨u, failure⟩]) where
  depths := by
    have hc : u.inner.chain.length = u.site.chain.length + 1 := by simp [Lookup.inner, Site.enter]
    rw [List.map_append, h.depths, hc]
    simp [List.range'_succ]
  common := by
    refine List.forall_mem_append.2 ⟨fun t ht => ?_, List.forall_mem_singleton.2 rfl⟩
    exact h.common t ht
  top below s h := by
    obtain ⟨_, hs⟩ := List.append_inj' h rfl
    cases hs
    exact ⟨rfl, rfl⟩
  bottom t above heq := by
    rw [← List.nil_append (t :: above)] at heq
    obtain ⟨hl, _⟩ | ⟨higher, _, hl⟩ := eq_append_cons_of_concat heq
    case inl => simp at hl
    case inr =>
      obtain ⟨before', last, hfr, ho⟩ := h.bottom t higher hl
      exact ⟨before ++ u.retrieval :: (step ++ before'), last, by simp [hfr], by simpa using ho⟩
  broke below t above heq := by
    obtain ⟨rfl, rfl, rfl⟩ | ⟨higher, rfl, hl⟩ := eq_append_cons_of_concat heq
    case inl =>
      refine ⟨before, _, rfl, List.forall_mem_append.2 ⟨hs, hf⟩, ?_⟩
      simpa using hr
    case inr =>
      obtain ⟨before', after, hfr, ha, hr⟩ := h.broke below t higher hl
      let begun := before ++ u.retrieval :: (step ++ before')
      refine ⟨begun, after, ?_, ha, ?_⟩
      case refine_1 => simp [begun, hfr]
      case refine_2 => simpa using hr
  nested below t t' above heq := by
    rw [List.append_cons below] at heq
    obtain ⟨hl, rfl, rfl⟩ | ⟨higher, rfl, hl⟩ := eq_append_cons_of_concat heq
    case inl =>
      obtain ⟨_, ht⟩ := List.append_inj' hl rfl
      cases ht
      refine ⟨(h.top stops s rfl).1, template, filled, earlier, content, ?_⟩
      have hb : s.bag = own := (h.top stops s rfl).2
      subst hb
      exact ⟨ha, by simp [he, Lookup.calling, Lookup.upTo], hp⟩
    case inr =>
      rw [← List.append_cons below] at hl
      obtain ⟨hi, template, filled, earlier, content, ha, hm, hp⟩ := h.nested below t t' higher hl
      exact ⟨hi, template, filled, earlier, content, by simpa using ha, by simp [hm], hp⟩

theorem Broken.unwound (h : Broken host n site bag front stops s) :
    Unwound host n site bag front (stops ++ [s]) := by
  induction h
  case own hs hr hf => exact .of_own hs hr hf
  case nested hs hr he ha hn hp ih => exact .concat hs hn.works hr he ha hp ih

end Resolution

theorem Localizer.resolution_course {l : Localizer ι} {r : Request ι}
    (hs : l.host.Silent r.options) :
    Resolution.Course l.host (Resolution.fuel r.options []) ⟨l.host, r.locale, r.options, []⟩ r.bag
      (l.resolution r) :=
  Resolution.level_course hs {} r.key r.locale r.bag

end Phrasebook
