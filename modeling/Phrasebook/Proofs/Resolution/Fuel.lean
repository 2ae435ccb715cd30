import Phrasebook.Proofs.Resolution.Tokens
import Phrasebook.Proofs.Run.Fuel
import Phrasebook.Proofs.Template.Order

namespace Phrasebook

variable {ι : Type}

def Site.HasRoom (site : Site ι) : Prop :=
  ∀ limit, site.options.depthLimit.value? = some limit → site.chain.length < limit

namespace Template

variable {site : Site ι} {bag : Bag} {resolve resolve' : Resolver ι}

theorem nestedText_rel (R : Run.Congruence (Event ι))
    (hr : ∀ key own, R.Rel (resolve key site.locale own site.options)
      (resolve' key site.locale own site.options)) {refuse : Cause → Failure} (n : Nested) :
    R.Rel (n.text site bag resolve refuse) (n.text site bag resolve' refuse) := by
  unfold Nested.text
  split
  case isTrue => exact R.refl _
  case isFalse =>
    refine R.bind (R.refl _) fun own => R.bind (R.refl _) fun _ => ?_
    exact R.bind (hr n.key own) fun _ => R.refl _

theorem nest_rel (R : Run.Congruence (Event ι))
    (hr : ∀ key own, R.Rel (resolve key site.locale own site.options)
      (resolve' key site.locale own site.options)) {template : String} :
    R.Rel (nest site bag resolve template) (nest site bag resolve' template) :=
  R.map (R.renderM (fun _ => nestedText_rel R hr _) _)

theorem nestedText_starvesAt {P : Event ι → Prop}
    (hr : ∀ key own, P ⟨site.chain, .nest key site.locale own site.options⟩ ∨
      (resolve key site.locale own site.options).StarvesAt P)
    {refuse : Cause → Failure} (n : Nested) : (n.text site bag resolve refuse).StarvesAt P := by
  unfold Nested.text
  split
  case isTrue => exact .of_fed .raise
  case isFalse =>
    refine (Run.StarvesAt.of_fed (bag_fed n)).bind fun own => ?_
    rcases hr n.key own with hp | hr
    case inl => exact .of_emit hp
    case inr =>
      refine (Run.StarvesAt.of_fed .emit).bind fun _ => hr.bind fun found => ?_
      cases found
      case none => exact .of_fed .raise
      case some => exact .of_fed .pure

theorem nest_starvesAt {P : Event ι → Prop}
    (hr : ∀ key own, P ⟨site.chain, .nest key site.locale own site.options⟩ ∨
      (resolve key site.locale own site.options).StarvesAt P) {template : String} :
    (nest site bag resolve template).StarvesAt P :=
  .map (.renderM (fun _ => nestedText_starvesAt hr _) _)

end Template

namespace Resolution

open Template

section Levels

variable {deeper deeper' : Scope → Resolver ι} {site : Site ι} {ns key : String} {bag : Bag}

-- The runs of nested keys are related wherever a level at a place can ask for them: below one more
-- template, and only if there is room.
def RelatedBelow (R : Run.Congruence (Event ι)) (deeper deeper' : Scope → Resolver ι)
    (site : Site ι) : Prop :=
  ∀ frame, (site.enter frame).HasRoom → ∀ ns raw own,
    R.Rel (deeper ⟨some ns, (site.enter frame).chain⟩ raw site.locale own site.options)
      (deeper' ⟨some ns, (site.enter frame).chain⟩ raw site.locale own site.options)

theorem nested_rel (R : Run.Congruence (Event ι)) {template raw : String} {own : Bag}
    (hd : site.HasRoom →
      R.Rel (deeper ⟨some ns, site.chain⟩ raw site.locale own site.options)
        (deeper' ⟨some ns, site.chain⟩ raw site.locale own site.options)) :
    R.Rel (nested deeper site ns template raw site.locale own site.options)
      (nested deeper' site ns template raw site.locale own site.options) := by
  unfold nested
  split
  case h_1 limit hl =>
    split
    case isTrue => exact R.refl _
    case isFalse hlt =>
      refine hd fun limit' hl' => ?_
      cases hl.symm.trans hl'
      omega
  case h_2 hl => exact hd fun limit hl' => nomatch hl.symm.trans hl'

theorem find_rel (R : Run.Congruence (Event ι)) (hd : RelatedBelow R deeper deeper' site) :
    R.Rel (find deeper site ns key bag) (find deeper' site ns key bag) := by
  refine R.bind (R.refl _) fun _ => R.bind (R.refl _) fun found => ?_
  cases found
  case none => exact R.refl _
  case some template =>
    refine R.bind (R.refl _) fun _ => R.bind (R.refl _) fun filled => R.map ?_
    let inner := site.enter ⟨ns, key, bag.context?⟩
    exact nest_rel R fun raw own => @nested_rel _ _ _ inner _ R _ _ _ fun hr => hd _ hr ns raw own

theorem search_rel (R : Run.Congruence (Event ι)) (hd : RelatedBelow R deeper deeper' site)
    (places : List (String × String)) :
    R.Rel (search deeper site bag places) (search deeper' site bag places) := by
  induction places
  case nil => exact R.refl _
  case cons place places ih =>
    simp only [search]
    split
    case isTrue => exact R.refl _
    case isFalse =>
      refine R.bind (R.attempt (find_rel R hd)) fun r => ?_
      match r with
      | .ok (some _) | .error _ => exact R.refl _
      | .ok none => exact ih

theorem resolveIn_rel (R : Run.Congruence (Event ι)) (hd : RelatedBelow R deeper deeper' site) :
    R.Rel (resolveIn deeper site ns key bag) (resolveIn deeper' site ns key bag) :=
  R.bind (R.refl _) fun _ => R.bind (search_rel R hd _) fun _ => R.refl _

theorem nested_starvesAt {P : Event ι → Prop} {template raw : String} {own : Bag}
    (hd : site.HasRoom →
      (deeper ⟨some ns, site.chain⟩ raw site.locale own site.options).StarvesAt P) :
    (nested deeper site ns template raw site.locale own site.options).StarvesAt P := by
  rcases nested_cases deeper site ns template raw site.locale own site.options with
    ⟨_, _, _, heq⟩ | ⟨hr, heq⟩
  all_goals rw [heq]
  case inl => exact .of_fed .raise
  case inr => exact hd hr

def StarveBelow (P : Event ι → Prop) (deeper : Scope → Resolver ι) (site : Site ι) : Prop :=
  ∀ frame, (site.enter frame).HasRoom → ∀ ns raw own,
    P ⟨(site.enter frame).chain, .nest raw site.locale own site.options⟩ ∨
      (deeper ⟨some ns, (site.enter frame).chain⟩ raw site.locale own site.options).StarvesAt P

theorem find_starvesAt {P : Event ι → Prop} (hd : StarveBelow P deeper site) :
    (find deeper site ns key bag).StarvesAt P := by
  refine (Run.StarvesAt.of_fed .emit).bind fun _ =>
    (Run.StarvesAt.of_fed .ofExcept).bind fun found => ?_
  cases found
  case none => exact .of_fed .pure
  case some template =>
    refine (Run.StarvesAt.of_fed .emit).bind fun _ =>
      (Run.StarvesAt.of_fed interpolateAround_fed).bind fun filled => .map ?_
    let inner := site.enter ⟨ns, key, bag.context?⟩
    refine nest_starvesAt fun raw own => ?_
    by_cases hr : inner.HasRoom
    case pos => exact (hd _ hr ns raw own).imp_right fun h => nested_starvesAt fun _ => h
    case neg => exact .inr (nested_starvesAt fun h => absurd h hr)

theorem recover_fed {failure : Failure} : (recover site ns key bag failure).Fed := by
  unfold recover
  split
  case h_1 => exact .raise
  case h_2 handler _ =>
    refine .bind .emit fun _ => ?_
    cases handler
    case warn => exact .bind .emit fun _ => .pure
    case handler => exact .ofExcept

theorem search_starvesAt {P : Event ι → Prop} (hd : StarveBelow P deeper site)
    (places : List (String × String)) : (search deeper site bag places).StarvesAt P := by
  induction places
  case nil => exact .of_fed .pure
  case cons place places ih =>
    simp only [search]
    split
    case isTrue => exact .of_fed (.bind .emit fun _ => .pure)
    case isFalse =>
      refine (find_starvesAt hd).attempt.bind fun r => ?_
      match r with
      | .ok (some _) => exact .of_fed .pure
      | .ok none => exact ih
      | .error _ => exact .of_fed recover_fed.map

theorem candidates_ends : (candidates site key bag).Ends := by
  unfold candidates
  cases bag.count?
  case none => exact .pure
  case some count =>
    have hp : (site.pluralSuffix count).Ends := by
      refine .bind ⟨(), rfl⟩ fun _ => ?_
      cases site.host.rules.rule? site.locale
      case none => exact .bind ⟨(), rfl⟩ fun _ => .pure
      case some => exact .pure
    exact hp.map.bind fun _ => .pure

theorem resolveIn_starvesAt {P : Event ι → Prop} (hd : StarveBelow P deeper site) :
    (resolveIn deeper site ns key bag).StarvesAt P := by
  refine (Run.StarvesAt.of_fed candidates_ends.fed).bind fun _ =>
    (search_starvesAt hd _).bind fun settled => ?_
  cases settled
  case none => exact .of_fed (.bind .emit fun _ => .pure)
  case some => exact .of_fed .pure

end Levels

section Fuel

variable {host : Host ι} {l : Locale} {o : Options ι}

-- A resolver that resolves nested keys by itself, without any fuel.
def Solves (host : Host ι) (l : Locale) (o : Options ι) (r : Scope → Resolver ι) : Prop :=
  ∀ scope raw bag, r scope raw l bag o = resolve r host scope raw l bag o

theorem level_settles_level {n n' : Nat} (hn : n ≤ n') (scope : Scope) (raw : String) (bag : Bag) :
    (level host n scope raw l bag o).Settles (level host n' scope raw l bag o) := by
  induction n generalizing n' scope raw bag
  case zero => exact .of_starved
  case succ n ih =>
    obtain _ | n' := n'
    · omega
    · exact resolveIn_rel .settles fun _ _ _ raw own => ih (Nat.le_of_succ_le_succ hn) _ raw own

theorem level_settles_solution {r : Scope → Resolver ι} (hr : Solves host l o r) (n : Nat)
    (scope : Scope) (raw : String) (bag : Bag) :
    (level host n scope raw l bag o).Settles (r scope raw l bag o) := by
  induction n generalizing scope raw bag
  case zero => exact .of_starved
  case succ n ih =>
    rw [hr]
    exact resolveIn_rel .settles fun _ _ _ raw own => ih _ raw own

theorem level_starvesAt (n : Nat) (scope : Scope) (raw : String) (bag : Bag) :
    (level host (n + 1) scope raw l bag o).StarvesAt fun e =>
      e.chain.length = scope.chain.length + (n + 1) ∧
        ∀ limit, o.depthLimit.value? = some limit → e.chain.length < limit := by
  induction n generalizing scope raw bag
  case zero =>
    -- The level has left its trace in the call for a nested key, for which there is no fuel.
    refine resolveIn_starvesAt fun frame hr ns raw own => .inl ⟨?_, hr⟩
    simp [Site.enter]
  case succ n ih =>
    refine resolveIn_starvesAt fun frame _ ns raw own => .inr ?_
    have hi := ih ⟨some ns, scope.chain ++ [frame]⟩ raw own
    rw [List.length_append, List.length_singleton, Nat.add_right_comm] at hi
    exact hi

theorem fuel_pos (o : Options ι) (chain : List Frame) : 0 < fuel o chain := by
  unfold fuel
  split
  case h_1 => omega
  case h_2 => decide

theorem level_fed {limit : Int} (hl : o.depthLimit.value? = some limit) {n : Nat} {scope : Scope}
    (hn : 0 < n) (hle : limit - scope.chain.length ≤ n) (raw : String) (bag : Bag) :
    (level host n scope raw l bag o).Fed := by
  obtain _ | n := n
  · omega
  · intro hs
    have ⟨e, _, he, hlt⟩ := level_starvesAt n scope raw bag hs
    have hlt := hlt limit hl
    omega

end Fuel
end Resolution
end Phrasebook
