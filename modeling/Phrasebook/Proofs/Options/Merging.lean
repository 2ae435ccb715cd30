import Phrasebook.Proofs.Options.Layers

namespace Phrasebook

variable {ι α : Type}

namespace Setting

theorem under_of_speaks {s : Setting α} (h : s.speaks) (lower lower' : Setting α) :
    lower.under s = lower'.under s := by
  cases s
  case unset => cases h
  case cleared | set => rfl

theorem foldl_under_of_unset {b : Setting α} {layers : List (Setting α)}
    (h : ∀ s ∈ layers, s = unset) : layers.foldl under b = b := by
  induction layers
  case nil => rfl
  case cons s layers ih =>
    obtain ⟨rfl, hl⟩ := List.forall_mem_cons.1 h
    exact ih hl

theorem foldl_under_of_last {b s : Setting α} {before after : List (Setting α)} (hs : s.speaks)
    (h : ∀ u ∈ after, u = unset) : (before ++ s :: after).foldl under b = unset.under s := by
  rw [List.foldl_append, List.foldl_cons, foldl_under_of_unset h]
  exact under_of_speaks hs _ _

theorem under_under_self (b s : Setting α) : (b.under s).under s = b.under s := by
  cases s <;> rfl

theorem under_right_comm {s u : Setting α} (b : Setting α) (h : s = unset ∨ u = unset) :
    (b.under s).under u = (b.under u).under s := by
  rcases h with rfl | rfl <;> rfl

end Setting

namespace Options

theorem ext_get {o o' : Options ι} (h : ∀ f, o.get f = o'.get f) : o = o' := by
  cases o
  cases o'
  rw [mk.injEq]
  exact ⟨h .nsSeparator, h .contextSeparator, h .pluralSeparator, h .pluralSuffix,
    h .keySeparator, h .opening, h .closing, h .formatSeparator, h .rawMark, h .escapes,
    h .nestOpening, h .nestClosing, h .nestSeparator, h .depthLimit, h .fallbacks, h .formats,
    h .onMissing, h .onFailure⟩

abbrev said (f : Field) (layer : Option (Options ι)) : Setting (f.Content ι) :=
  (layer.getD {}).get f

def Apart (layer layer' : Option (Options ι)) : Prop :=
  ∀ f, said f layer = .unset ∨ said f layer' = .unset

theorem get_mergeAll (b : Options ι) (layers : List (Option (Options ι))) (f : Field) :
    (b.mergeAll layers).get f = (layers.map (said f)).foldl Setting.under (b.get f) := by
  induction layers generalizing b
  case nil => rfl
  case cons layer layers ih =>
    calc
      _ = (layers.map (said f)).foldl Setting.under ((b.merge? layer).get f) := ih _
      _ = ((layer :: layers).map (said f)).foldl Setting.under (b.get f) := by
        rw [get_merge?, List.map_cons, List.foldl_cons]

theorem mergeAll_append (b : Options ι) (layers more : List (Option (Options ι))) :
    b.mergeAll (layers ++ more) = (b.mergeAll layers).mergeAll more :=
  List.foldl_append

theorem merge?_merge?_self (b : Options ι) (layer : Option (Options ι)) :
    (b.merge? layer).merge? layer = b.merge? layer :=
  ext_get fun f => by simp only [get_merge?, Setting.under_under_self]

theorem merge?_right_comm {layer layer' : Option (Options ι)} (h : Apart layer layer')
    (b : Options ι) : (b.merge? layer).merge? layer' = (b.merge? layer').merge? layer :=
  ext_get fun f => by
    simp only [get_merge?, Setting.under_right_comm _ (h f)]

-- A field is what the last layer that speaks of it makes of it, and what it was if there is none.
-- It does not matter what a field is set to, only that it is set.
theorem last_layer_decides (b : Options ι) (layers : List (Option (Options ι))) :
    (∀ f, (∀ layer ∈ layers, said f layer = .unset) → (b.mergeAll layers).get f = b.get f) ∧
    (∀ f before o after, layers = before ++ some o :: after →
      (∀ layer ∈ after, said f layer = .unset) →
        (o.get f = .cleared → (b.mergeAll layers).get f = .unset) ∧
        ∀ a, o.get f = .set a → (b.mergeAll layers).get f = .set a) ∧
    (∀ layer, b.mergeAll (layers ++ [layer, layer]) = b.mergeAll (layers ++ [layer])) ∧
    ∀ before layer layer' after, layers = before ++ layer :: layer' :: after →
      Apart layer layer' →
        b.mergeAll layers = b.mergeAll (before ++ layer' :: layer :: after) := by
  refine ⟨?silent, ?last, ?again, ?apart⟩
  case silent =>
    intro f h
    rw [get_mergeAll]
    exact Setting.foldl_under_of_unset (List.forall_mem_map.2 h)
  case last =>
    rintro f before o after rfl h
    have hlast (hs : (said f (some o)).speaks) :
        (b.mergeAll (before ++ some o :: after)).get f = Setting.unset.under (o.get f) := by
      rw [get_mergeAll, List.map_append, List.map_cons]
      exact Setting.foldl_under_of_last hs (List.forall_mem_map.2 h)
    refine ⟨fun ho => ?cleared, fun a ho => ?set⟩
    case cleared =>
      rw [hlast (congrArg Setting.speaks ho), ho]
      rfl
    case set =>
      rw [hlast (congrArg Setting.speaks ho), ho]
      rfl
  case again =>
    intro layer
    rw [mergeAll_append, mergeAll_append]
    exact merge?_merge?_self _ layer
  case apart =>
    rintro before layer layer' after rfl h
    rw [mergeAll_append, mergeAll_append]
    exact congrArg (mergeAll · after) (merge?_right_comm h _)

theorem cleared_limit_stays :
    let limited : Options Empty := { depthLimit := .set 3, nsSeparator := .set "|" }
    let free : Options Empty := { depthLimit := .cleared }
    let unsplit : Options Empty := { nsSeparator := .set "" }
    let o := base.mergeAll [some limited, some free, none, some unsplit]
    o.depthLimit = .unset ∧ o.nsSeparator = .set "" ∧ o.keySeparator = .set "." ∧
      o = base.mergeAll [some limited, none, some free, some unsplit] := by
  intro limited free unsplit o
  obtain ⟨hsilent, hlast, _, hapart⟩ :=
    last_layer_decides base [some limited, some free, none, some unsplit]
  refine ⟨?limit, ?separator, ?silent, ?swapped⟩
  case limit =>
    refine (hlast .depthLimit [some limited] free [none, some unsplit] rfl ?_).1 rfl
    exact List.forall_mem_cons.2 ⟨rfl, List.forall_mem_singleton.2 rfl⟩
  case separator =>
    refine (hlast .nsSeparator [some limited, some free, none] unsplit [] rfl ?_).2 "" rfl
    exact List.forall_mem_nil _
  case silent =>
    refine hsilent .keySeparator ?_
    exact List.forall_mem_cons.2 ⟨rfl, List.forall_mem_cons.2
      ⟨rfl, List.forall_mem_cons.2 ⟨rfl, List.forall_mem_singleton.2 rfl⟩⟩⟩
  case swapped =>
    exact hapart [some limited] (some free) none [some unsplit] rfl fun f => .inr (get_empty f)

end Options
end Phrasebook
