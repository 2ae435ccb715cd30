import Phrasebook.Localizer
import Phrasebook.Proofs.Key.Splitting

namespace Phrasebook.Resolution

open Template

variable {ι : Type} {host : Host ι} {o : Options ι} {ns separator key : String}

theorem resolve_qualified (deeper : Scope → Resolver ι) (hs : separator ≠ "")
    (ho : o.nsSeparator.value? = some separator) (hk : ¬ separator.toList <:+: key.toList)
    (hf : Text.First separator.toList ns.toList key.toList) (scope : Option String)
    (chain : List Frame) (l : Locale) (bag : Bag) :
    resolve deeper host ⟨some ns, chain⟩ key l bag o =
      resolve deeper host ⟨scope, chain⟩ (ns ++ separator ++ key) l bag o := by
  have ⟨hns, hpath⟩ := (Key.parse_qualified_iff hs).2 hf
  have halone : resolve deeper host ⟨some ns, chain⟩ key l bag o =
      resolveIn deeper ⟨host, l, o, chain⟩ ns key bag := by
    simp only [resolve, ho, Key.parse_of_absent hk, Option.getD_none, Option.getD_some]
  have hqualified : resolve deeper host ⟨scope, chain⟩ (ns ++ separator ++ key) l bag o =
      resolveIn deeper ⟨host, l, o, chain⟩ ns key bag := by
    simp only [resolve, ho, hns, hpath, Option.getD_some]
  rw [halone, hqualified]

theorem level_qualified (hs : separator ≠ "") (ho : o.nsSeparator.value? = some separator)
    (hk : ¬ separator.toList <:+: key.toList)
    (hf : Text.First separator.toList ns.toList key.toList) (scope : Option String)
    (chain : List Frame) (l : Locale) (bag : Bag) (n : Nat) :
    level host n ⟨some ns, chain⟩ key l bag o =
      level host n ⟨scope, chain⟩ (ns ++ separator ++ key) l bag o := by
  cases n
  case zero => rfl
  case succ n => exact resolve_qualified (level host n) hs ho hk hf scope chain l bag

-- Keys are put together again as they were, and a namespace is split off again just if the
-- separator behind it is the first one. Then it makes no difference, neither to what comes of the
-- key nor to what happens on the way, whether the namespace stands in front of the key or is that
-- of the scope.
theorem namespace_in_key_or_scope :
    (∀ raw separator, (Key.parse raw separator).text = raw) ∧
    (∀ ns key separator : String, separator ≠ "" →
      ((Key.parse (ns ++ separator ++ key) (some separator)).ns = some ns ∧
        (Key.parse (ns ++ separator ++ key) (some separator)).path = key ↔
          Text.First separator.toList ns.toList key.toList)) ∧
    ∀ {ι : Type} (host : Host ι) (o : Options ι) (ns key separator : String), separator ≠ "" →
      o.nsSeparator.value? = some separator → ¬ separator.toList <:+: key.toList →
      Text.First separator.toList ns.toList key.toList →
      ∀ (scope : Option String) (chain : List Frame) (l : Locale) (bag : Bag),
        (∀ n, level host n ⟨some ns, chain⟩ key l bag o =
          level host n ⟨scope, chain⟩ (ns ++ separator ++ key) l bag o) ∧
        resolver host ⟨some ns, chain⟩ key l bag o =
          resolver host ⟨scope, chain⟩ (ns ++ separator ++ key) l bag o := by
  refine ⟨Key.text_parse, fun _ _ _ => Key.parse_qualified_iff, ?_⟩
  intro ι host o ns key separator hs ho hk hf scope chain l bag
  have h : ∀ n, level host n ⟨some ns, chain⟩ key l bag o =
      level host n ⟨scope, chain⟩ (ns ++ separator ++ key) l bag o :=
    level_qualified hs ho hk hf scope chain l bag
  exact ⟨h, h _⟩

theorem greeting_qualified :
    let page : Members Value := [("hi", .text "Hi $t(name)"), ("name", .text "Bo")]
    let c : Catalog := ⟨[("en", [("", page), ("talk", [("hi", .text "Hello")])])]⟩
    let host : Host Empty := (Host.ofTemplates []).withCatalog c
    let o : Options Empty := { Options.base with nsSeparator := .set "::" }
    let chain : List Frame := [⟨"talk", "letter", none⟩]
    (resolver host ⟨some "talk", chain⟩ "::hi" ⟨"en", none⟩ [] o).outcome =
        .done (some "Hi Bo") ∧
      resolver host ⟨some "", chain⟩ "hi" ⟨"en", none⟩ [] o =
        resolver host ⟨some "talk", chain⟩ "::hi" ⟨"en", none⟩ [] o ∧
      (Key.parse "talk:::hi" (some "::")).text = "talk:::hi" ∧
      ¬ Text.First "::".toList "talk:".toList "hi".toList := by
  intro page c host o chain
  have ⟨htext, hiff, hscope⟩ := namespace_in_key_or_scope
  have hf : Text.First "::".toList "".toList "hi".toList := fun _ _ => Nat.zero_le _
  have hk : ¬ "::".toList <:+: "hi".toList := by decide
  have hpath : (Key.parse ("talk:" ++ "::" ++ "hi") (some "::")).path ≠ "hi" := by decide +kernel
  refine ⟨by decide +kernel, ?_, htext .., fun h => ?_⟩
  case refine_1 =>
    exact (hscope host o "" "hi" "::" (by decide) rfl hk hf (some "talk") chain _ []).2
  case refine_2 => exact hpath ((hiff "talk:" "hi" "::" (by decide)).2 h).2

end Phrasebook.Resolution
