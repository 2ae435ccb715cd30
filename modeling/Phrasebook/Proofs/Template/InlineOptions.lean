import Phrasebook.Proofs.Json.Integers
import Phrasebook.Proofs.Template.Brackets
import Phrasebook.Proofs.Template.Filling
import Phrasebook.Proofs.Template.Plain
import Phrasebook.Proofs.Template.Substitution

namespace Phrasebook

variable {ι : Type}

namespace Template

variable {o : Options ι} {site : Site ι} {bag own : Bag} {resolve : Resolver ι}
  {refuse : Cause → Failure} {n : Nested} {key content inner rest : List Char}

-- A key that does not look like anything else.
def KeyText (key : List Char) : Prop :=
  ∀ c ∈ key, c ∉ ['"', '\x7b', '[', ',', ')']

theorem split_of_passes (ho : o.UsualNesting) (h : Nesting.Passes [')'] {} content {})
    (rest : List Char) :
    o.nestingMarks.split ("$t(".toList ++ content ++ ')' :: rest) =
      ⟨([], content) :: (o.nestingMarks.split rest).marked, (o.nestingMarks.split rest).tail⟩ := by
  have hopen : o.nestingMarks.opening = "$t(".toList := congrArg String.toList ho.nestOpening
  have hclose : o.nestingMarks.close = Nesting.close? [')'] {} := by
    change Nesting.close? (o.nestClosing.textOr ")").toList {} = _
    rw [ho.nestClosing]
    rfl
  have hcut : Text.cut? o.nestingMarks.opening ("$t(".toList ++ content ++ ')' :: rest) =
      some ([], content ++ ')' :: rest) := by
    refine Text.cut?_of_after? (Text.after?_eq_some_iff.2 ?_)
    rw [hopen, List.append_assoc]
  refine Marking.split_of_close hcut ?_
  simpa [hclose] using h.close?_eq (by decide) rest

theorem token_of_usualNesting (ho : o.UsualNesting) :
    o.nestingMarks.token content = "$t(".toList ++ content ++ [')'] := by
  simp [Marking.token, Options.nestingMarks, ho.nestOpening, ho.nestClosing]

theorem passes_of_free (h : ∀ c ∈ key, c ∉ ['"', '\x7b', '[', ')']) :
    Nesting.Passes [')'] {} key {} := by
  refine .loop fun c hc => ?_
  have hc := h c hc
  simp only [List.mem_cons, List.not_mem_nil, or_false, not_or] at hc
  obtain ⟨hq, hb, hs, hp⟩ := hc
  refine ⟨fun _ => ⟨')', [], rfl, Ne.symm hp⟩, ?_⟩
  simp only [Nesting.step, hq, hb, hs, or_self, if_false]
  split <;> rfl

theorem passes_content {object w w' : List Char} (hk : KeyText key)
    (h : Nesting.Passes [')'] {} object {}) (hw : Json.Blank w) (hw' : Json.Blank w') :
    Nesting.Passes [')'] {} (key ++ ',' :: (w ++ (object ++ w'))) {} := by
  have hblank {w : List Char} (h : Json.Blank w) : Nesting.Passes [')'] {} w {} := by
    refine passes_of_free fun c hc => ?_
    rcases Json.isSpace_cases (h c hc) with rfl | rfl | rfl | rfl <;> decide
  have hsub : ['"', '\x7b', '[', ')'] ⊆ ['"', '\x7b', '[', ',', ')'] := by simp
  have hkey : Nesting.Passes [')'] {} key {} :=
    passes_of_free fun c hc hm => hk c hc (hsub hm)
  have hcomma : Nesting.Passes [')'] {} [','] {} := passes_of_free (by simp)
  exact hkey.append <| hcomma.append <| (hblank hw).append <| h.append (hblank hw')

theorem interpolate_of_no_opening {text : String}
    (h : ¬ (site.options.opening.textOr "\x7b\x7b").toList <:+: text.toList) (bag : Bag) :
    interpolate site bag text = pure text := by
  have hm : (site.options.variableMarks.split text.toList).marked = [] :=
    Marking.marked_eq_nil_of_no_token (Marking.no_token_of_no_opening _ h)
  rw [interpolate, fill_of_plain hm, map_pure, String.ofList_toList]

theorem parse_of_keyText (ho : o.UsualNesting) (hk : KeyText key) (inner : List Char) :
    Nested.parse o (key ++ ',' :: inner) =
      ⟨String.ofList (Text.trimmed key), String.ofList inner⟩ := by
  have hc : Text.cut? [','] (key ++ ',' :: inner) = some (key, inner) :=
    by simpa using @Text.cut?_of_not_mem ',' [] key inner fun hm => hk _ hm (by decide)
  have hs : (o.nestSeparator.textOr ",").toList = [','] := congrArg String.toList ho.nestSeparator
  rw [Nested.parse, hs, hc]
  rfl

namespace Nested

theorem bag_of_read {text : String} {ms : Members Value}
    (hi : Text.trimmed n.inner.toList ≠ []) (hf : n.filled site bag = pure text)
    (hr : Json.read text site.host.conversion = .ok (.object ms)) :
    n.bag site bag refuse = pure (bag.putAll ms) := by
  rw [bag_of_filled hi, hf, pure_bind, hr]

theorem bag_of_fault {text : String} {fault : Json.Fault}
    (hi : Text.trimmed n.inner.toList ≠ []) (hf : n.filled site bag = pure text)
    (hr : Json.read text site.host.conversion = .error fault) :
    n.bag site bag refuse = .raise (unreadable refuse fault) := by
  rw [bag_of_filled hi, hf, pure_bind, hr]

def ask (site : Site ι) (own : Bag) (resolve : Resolver ι) (refuse : Cause → Failure)
    (key : String) : Run (Event ι) (List Char) := do
  site.emit (.nest key site.locale own site.options)
  match ← resolve key site.locale own site.options with
  | none => .raise (refuse (.nestedMissing key))
  | some s => return s.toList

theorem text_eq_bind (hk : n.key ≠ "") :
    n.text site bag resolve refuse =
      (n.bag site bag refuse >>= fun own => ask site own resolve refuse n.key) :=
  if_neg (by simpa using hk)

end Nested

theorem nest_of_split {template : List Char}
    (h : site.options.nestingMarks.split template =
      ⟨([], content) :: (site.options.nestingMarks.split rest).marked,
        (site.options.nestingMarks.split rest).tail⟩) :
    let token := tokenText site bag resolve (String.ofList template)
    nest site bag resolve (String.ofList template) = (do
      let text ← token content
      let more ← (site.options.nestingMarks.split rest).renderM pure token
      return String.ofList (text ++ more)) := by
  intro token
  rw [nest_eq_map_renderM, h, Split.renderM_cons]
  simp only [id_map, pure_bind, map_bind, map_pure, List.nil_append]
  rfl

section Object

variable (ho : site.options.UsualNesting) (hk : KeyText key) (hn : Text.trimmed key ≠ [])
  (hp : Nesting.Passes [')'] {} (key ++ ',' :: inner) {}) (hi : '\x7b' ∈ inner) {text : String}
  (hf : interpolate { site with options := site.options.unescaped } bag (String.ofList inner) =
    pure text)

include ho hk hn hi

theorem tokenText_of_keyText (template : String) :
    let content := key ++ ',' :: inner
    let n : Nested := ⟨String.ofList (Text.trimmed key), String.ofList inner⟩
    let refuse (cause : Cause) : Failure :=
      .render cause template (String.ofList ("$t(".toList ++ content ++ [')']))
    Text.trimmed n.inner.toList ≠ [] ∧
      tokenText site bag resolve template content =
        (n.bag site bag refuse >>= fun own => Nested.ask site own resolve refuse n.key) := by
  intro content n refuse
  have hparse : Nested.parse site.options content = n := parse_of_keyText ho hk inner
  have hmarks : site.options.nestingMarks.token content = "$t(".toList ++ content ++ [')'] :=
    token_of_usualNesting ho
  have hinner : Text.trimmed n.inner.toList ≠ [] := by
    have ht : n.inner.toList = inner := String.toList_ofList
    rw [ht]
    exact List.ne_nil_of_mem (Text.mem_trimmed hi (by decide))
  have hkey : n.key ≠ "" := by simpa [n] using hn
  refine ⟨hinner, ?_⟩
  rw [tokenText, hparse, hmarks]
  exact Nested.text_eq_bind hkey

include hp hf

theorem nest_of_object {ms : Members Value}
    (hr : Json.read text site.host.conversion = .ok (.object ms)) (rest : List Char) :
    let marks := site.options.nestingMarks
    let content := key ++ ',' :: inner
    let template := "$t(".toList ++ content ++ ')' :: rest
    let name := String.ofList (Text.trimmed key)
    let own := bag.putAll ms
    let refuse (cause : Cause) : Failure :=
      .render cause (String.ofList template) (String.ofList ("$t(".toList ++ content ++ [')']))
    nest site bag resolve (String.ofList template) = (do
      site.emit (.nest name site.locale own site.options)
      match ← resolve name site.locale own site.options with
      | none => .raise (refuse (.nestedMissing name))
      | some s =>
        let more ← (marks.split rest).renderM pure
          (tokenText site bag resolve (String.ofList template))
        return String.ofList (s.toList ++ more)) := by
  intro marks content template name own refuse
  have ⟨hblank, htoken⟩ := @tokenText_of_keyText _ site bag resolve _ _ ho hk hn hi
    (String.ofList template)
  rw [nest_of_split (split_of_passes ho hp rest), htoken, Nested.bag_of_read hblank hf hr,
    pure_bind, Nested.ask, bind_assoc]
  refine bind_congr fun _ => ?_
  rw [bind_assoc]
  refine bind_congr fun found => ?_
  cases found
  case none => rfl
  case some => rw [pure_bind]

theorem nest_of_fault {fault : Json.Fault}
    (hr : Json.read text site.host.conversion = .error fault) (rest : List Char) :
    let content := key ++ ',' :: inner
    let template := "$t(".toList ++ content ++ ')' :: rest
    let refuse (cause : Cause) : Failure :=
      .render cause (String.ofList template) (String.ofList ("$t(".toList ++ content ++ [')']))
    nest site bag resolve (String.ofList template) = .raise (Nested.unreadable refuse fault) := by
  intro content template refuse
  have ⟨hblank, htoken⟩ := @tokenText_of_keyText _ site bag resolve _ _ ho hk hn hi
    (String.ofList template)
  rw [nest_of_split (split_of_passes ho hp rest), htoken, Nested.bag_of_fault hblank hf hr]
  rfl

end Object

section Objects

variable {site : Site ι} {bag : Bag} {json w w' : List Char}
  {ms : List (List Json.Symbol × Json.Tree)}

theorem interpolate_of_object (ho : site.options.UsualNesting) (hw : Json.Blank w)
    (hw' : Json.Blank w') (hplain : ¬ "\x7b\x7b".toList <:+: json) :
    interpolate { site with options := site.options.unescaped } bag
      (String.ofList (w ++ (json ++ w'))) = pure (String.ofList (w ++ (json ++ w'))) := by
  have hfree : ¬ (site.options.opening.textOr "\x7b\x7b").toList <:+: w ++ (json ++ w') := by
    rw [ho.opening]
    intro h
    have h : ['\x7b'] ++ ['\x7b'] <:+: json ++ w' := Text.infix_of_infix_append hw.no_brace h
    exact hplain (Text.infix_of_append_infix hw'.no_brace h)
  exact interpolate_of_no_opening (by rwa [String.toList_ofList]) bag

theorem mem_brace_of_object (hj : Json.Spells json (.value (.object ms))) :
    '\x7b' ∈ w ++ (json ++ w') := by
  obtain ⟨_, more, rfl, _⟩ := hj.exists_of_object
  simp

theorem nest_of_exceeded (ho : site.options.UsualNesting) (hk : KeyText key)
    (hkey : Text.trimmed key ≠ []) (hj : Json.Spells json (.value (.object ms)))
    (hw : Json.Blank w) (hw' : Json.Blank w') (hplain : ¬ "\x7b\x7b".toList <:+: json)
    {before after : List Int} {n : Int} {limit : Nat}
    (hn : (Json.Tree.object ms).integers = before ++ n :: after)
    (hb : ∀ m ∈ before, site.host.conversion.Fits m)
    (hl : site.host.conversion.exceeded? n = some limit) (bag : Bag) (resolve : Resolver ι)
    (rest : List Char) :
    nest site bag resolve
        (String.ofList ("$t(".toList ++ (key ++ ',' :: (w ++ (json ++ w'))) ++ ')' :: rest)) =
      .raise (.host "ValueError" (beyondLimit limit (some (digitCount n)))) :=
  nest_of_fault ho hk hkey (passes_content hk hj.passes_of_object hw hw') (mem_brace_of_object hj)
    (interpolate_of_object ho hw hw' hplain) (Json.read_of_exceeded hj hw hw' hn hb hl) rest

end Objects

-- A JSON object in a token does not end it, whatever the object holds and whatever spaces stand
-- around it. If no variable begins in the object and no whole number in it is too long to be read,
-- the resolver is asked for the key without the blanks around it, once, with the members of the
-- object over the variables of the template. Their names are told apart by all of their symbols,
-- lone halves too, unless a character that tells one stands for itself somewhere.
theorem object_in_token {site : Site ι} (ho : site.options.UsualNesting) (bag : Bag)
    (resolve : Resolver ι) {key json w w' : List Char} {ms : List (List Json.Symbol × Json.Tree)}
    (hk : KeyText key) (hj : Json.Spells json (.value (.object ms))) (hw : Json.Blank w)
    (hw' : Json.Blank w') (rest : List Char) :
    let marks := site.options.nestingMarks
    let content := key ++ ',' :: (w ++ (json ++ w'))
    let template := "$t(".toList ++ content ++ ')' :: rest
    marks.split template =
      ⟨([], content) :: (marks.split rest).marked, (marks.split rest).tail⟩ ∧
    (Text.trimmed key ≠ [] → ¬ "\x7b\x7b".toList <:+: json →
      let c := site.host.conversion
      (∀ n ∈ (Json.Tree.object ms).integers, c.Fits n) →
      let name := String.ofList (Text.trimmed key)
      let inner := Members.putAll [] (Json.Tree.pairs c ms)
      let own := bag.putAll inner
      let refuse (cause : Cause) : Failure :=
        .render cause (String.ofList template) (String.ofList ("$t(".toList ++ content ++ [')']))
      (∀ n, own.get? n = (inner.get? n).or (bag.get? n)) ∧
      ((∀ m ∈ ms, Json.Free c m.1) → ∀ s, Json.Free c s →
        inner.get? (Json.text c s) = (ms.reverse.lookup s).map (Json.Tree.value c)) ∧
      nest site bag resolve (String.ofList template) = (do
        site.emit (.nest name site.locale own site.options)
        match ← resolve name site.locale own site.options with
        | none => .raise (refuse (.nestedMissing name))
        | some s =>
          let more ← (marks.split rest).renderM pure
            (tokenText site bag resolve (String.ofList template))
          return String.ofList (s.toList ++ more))) := by
  intro marks content template
  have hp : Nesting.Passes [')'] {} content {} := passes_content hk hj.passes_of_object hw hw'
  refine ⟨split_of_passes ho hp rest, fun hkey hplain => ?_⟩
  intro c hfits name inner own refuse
  have hread : Json.read (String.ofList (w ++ (json ++ w'))) c = .ok (.object inner) :=
    Json.read_of_fits hj hw hw' hfits
  refine ⟨Members.get?_putAll (Json.nodup_names_of_read hread) bag, fun hm s hs => ?_, ?_⟩
  case refine_1 => exact (Json.get?_putAll_pairs hs hm []).trans (Option.or_none)
  case refine_2 =>
    exact nest_of_object ho hk hkey hp (mem_brace_of_object hj)
      (interpolate_of_object ho hw hw' hplain) hread rest

theorem tricky_object_in_token :
    let site : Site Empty := ⟨.ofTemplates [], ⟨"en", none⟩, .base, []⟩
    let bag : Bag := [("x", .int 1)]
    let resolve : Resolver Empty := fun key _ bag _ =>
      pure (some (key ++ "=" ++ ((bag.get? "x").elim "" (·.shown))))
    let json := "\x7b\"x\":\"]\\\")\\\\\", \"\\ud800\" :[\"$t(\"],\"\\udc00\":2\x7d"
    let chars (text : String) : List Json.Symbol := text.toList.map .char
    let high : List Json.Symbol := [.half 0xD800 (by decide)]
    let low : List Json.Symbol := [.half 0xDC00 (by decide)]
    let ms : List (List Json.Symbol × Json.Tree) :=
      [(chars "x", .string (chars "]\")\\")), (high, .list [.string (chars "$t(")]),
        (low, .scalar (.int 2))]
    let c := site.host.conversion
    let inner := Members.putAll [] (Json.Tree.pairs c ms)
    site.options.UsualNesting ∧ KeyText " k ".toList ∧
      Json.Spells json.toList (.value (.object ms)) ∧ Json.Blank " ".toList ∧
      ¬ "\x7b\x7b".toList <:+: json.toList ∧ (∀ n ∈ (Json.Tree.object ms).integers, c.Fits n) ∧
      (nest site bag resolve ("$t( k , " ++ json ++ ")!")).outcome = .done "k=]\")\\!" ∧
      inner.get? (Json.text c high) = some (.list [.text "$t("]) ∧
      inner.get? (Json.text c low) = some (.int 2) := by
  intro site bag resolve json chars high low ms c inner
  have ho : site.options.UsualNesting := Options.usualMarks_base.toUsualNesting
  have hk : KeyText " k ".toList := by simp [KeyText]
  have hw : Json.Blank " ".toList := by simp [Json.Blank, Json.isSpace]
  have hw' : Json.Blank [] := List.forall_mem_nil _
  have hplain : ¬ "\x7b\x7b".toList <:+: json.toList := by decide +kernel
  have hj : Json.Spells json.toList (.value (.object ms)) := by
    have hx : Json.Spelling "]\\\")\\\\".toList (chars "]\")\\") :=
      .plain (by decide) (by decide) (by decide) <| .short rfl <|
        .plain (by decide) (by decide) (by decide) <| .short rfl .nil
    have hname : Json.Spelling ['x'] (chars "x") := Json.spelling_of_plain (by simp)
    have no_low : ¬ Json.BeginsLow [] := by
      rintro ⟨_, _, _, _, _, h⟩
      cases h
    have hhalf {c : Char} {i : Nat} (hd : Json.digit? c = some i) :
        Json.Spelling ['\\', 'u', 'd', c, '0', '0']
          [Json.ofUnit (((13 * 16 + i) * 16 + 0) * 16 + 0)] :=
      .unit (.intro rfl hd rfl rfl) (fun _ h => no_low h) .nil
    have hhigh : Json.Spelling "\\ud800".toList high := @hhalf '8' 8 rfl
    have hlow : Json.Spelling "\\udc00".toList low := @hhalf 'c' 12 rfl
    have hy : Json.Spelling "$t(".toList (chars "$t(") := Json.spelling_of_plain (by simp)
    have hlist := Json.Spells.list hw' (.lastItem (.string hy) hw')
    have htwo : Json.Spells ['2'] (.value (.scalar (.int 2))) := Json.spells_int 2
    have hobject := Json.Spells.object hw' <| .member hname hw' hw' (.string hx) hw' hw <|
      .member hhigh hw hw' hlist hw' hw' <| .lastMember hlow hw' hw' htwo hw'
    refine cast (congrArg₂ Json.Spells ?_ rfl) hobject
    decide +kernel
  have hfits : ∀ n ∈ (Json.Tree.object ms).integers, c.Fits n := by decide
  have h := (object_in_token ho bag resolve hk hj hw hw' ['!']).2 (by decide +kernel) hplain hfits
  have hfree : ∀ m ∈ ms, Json.Free c m.1 := by
    refine List.forall_mem_cons.2 ⟨fun d hd => ?_, ?_⟩
    case refine_1 =>
      obtain rfl : d = 'x' := by simpa [chars] using hd
      rfl
    case refine_2 => simp [Json.Free, high, low]
  let content := " k ".toList ++ ',' :: (" ".toList ++ (json.toList ++ []))
  have ht : String.ofList ("$t(".toList ++ content ++ ')' :: ['!']) =
      "$t( k , " ++ json ++ ")!" := by decide +kernel
  refine ⟨ho, hk, hj, hw, hplain, hfits, ?_, ?_, ?_⟩
  case refine_1 =>
    rw [← ht, h.2.2]
    decide +kernel
  case refine_2 =>
    exact h.2.1 hfree high (hfree (high, .list [.string (chars "$t(")]) (by simp [ms]))
  case refine_3 => exact h.2.1 hfree low (hfree (low, .scalar (.int 2)) (by simp [ms]))

def powerObject (k : Nat) : List Char :=
  '\x7b' :: '"' :: 'n' :: '"' :: ':' :: (Nat.toDigits 10 (Nat.pow 10 k) ++ ['\x7d'])

def powerMembers (k : Nat) : List (List Json.Symbol × Json.Tree) :=
  [([.char 'n'], .scalar (.int (Nat.pow 10 k)))]

theorem powerObject_spells (k : Nat) :
    Json.Spells (powerObject k) (.value (.object (powerMembers k))) := by
  have hw : Json.Blank [] := List.forall_mem_nil _
  have hn : Json.Spells (Nat.toDigits 10 (Nat.pow 10 k)) (.value (.scalar (.int (Nat.pow 10 k)))) :=
    cast (congrArg (Json.Spells · _) Nat.toList_repr) (Json.spells_int (Nat.pow 10 k))
  have hname : Json.Spelling ['n'] [.char 'n'] := Json.spelling_of_plain (by simp)
  exact .object hw (.lastMember hname hw hw hn hw)

theorem powerObject_plain (k : Nat) : ¬ "\x7b\x7b".toList <:+: powerObject k := by
  have hrest :
      '\x7b' ∉ '"' :: 'n' :: '"' :: ':' :: (Nat.toDigits 10 (Nat.pow 10 k) ++ ['\x7d']) := by
    intro h
    have h : '\x7b' ∈ Nat.toDigits 10 (Nat.pow 10 k) := by simpa using h
    cases Nat.isDigit_of_mem_toDigits (by decide) (by decide) h
  intro h
  have h : ['\x7b', '\x7b'] <:+: '\x7b' :: _ := h
  rcases List.infix_cons_iff.1 h with h | h
  case inl => cases (List.cons_prefix_cons.1 (List.cons_prefix_cons.1 h).2).1
  case inr => exact hrest (h.subset List.mem_cons_self)

theorem nest_powerObject {k : Nat} (ho : site.options.UsualNesting)
    (hk : site.host.conversion.digits = some k) (bag : Bag) (resolve : Resolver ι) :
    nest site bag resolve (String.ofList ("$t(k,".toList ++ powerObject k ++ [')'])) =
      .raise (.host "ValueError" (beyondLimit k (some (k + 1)))) := by
  have hw : Json.Blank [] := List.forall_mem_nil _
  have hlong : site.host.conversion.exceeded? (Nat.pow 10 k) = some k := by
    have hn : k < digitCount (Nat.pow 10 k) := Json.digitCount_pow k ▸ Nat.lt_succ_self k
    exact Option.filter_eq_some_iff.2 ⟨hk, decide_eq_true hn⟩
  have h := nest_of_exceeded ho (by simp [KeyText] : KeyText ['k']) (by decide)
    (powerObject_spells k) hw hw (powerObject_plain k) rfl (List.forall_mem_nil _) hlong bag
    resolve []
  have ht : "$t(k,".toList ++ powerObject k ++ [')'] =
      "$t(".toList ++ (['k'] ++ ',' :: ([] ++ (powerObject k ++ []))) ++ [')'] := by simp
  rw [ht, h, Json.digitCount_pow]

-- The limit of the usual host is below `10 ^ 4300`: the resolver is not asked at all.
theorem long_number_refused :
    let site : Site Empty := ⟨.ofTemplates [], ⟨"en", none⟩, .base, []⟩
    let resolve : Resolver Empty := fun _ _ _ _ => pure (some "")
    site.options.UsualNesting ∧ KeyText ['k'] ∧ Text.trimmed ['k'] ≠ [] ∧
      Json.Spells (powerObject 4300) (.value (.object (powerMembers 4300))) ∧
      ¬ "\x7b\x7b".toList <:+: powerObject 4300 ∧
      nest site [] resolve (String.ofList ("$t(k,".toList ++ powerObject 4300 ++ [')'])) =
        .raise (.host "ValueError" (beyondLimit 4300 (some 4301))) := by
  intro site resolve
  have ho : site.options.UsualNesting := Options.usualMarks_base.toUsualNesting
  exact ⟨ho, by simp [KeyText], by decide, powerObject_spells _, powerObject_plain _,
    nest_powerObject ho rfl [] resolve⟩

end Template
end Phrasebook
