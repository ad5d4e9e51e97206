/-
  File:      ComponentContainer/Proofs/WrittenPolicies.lean
  Subject:   Rollback policies survive being written and read.

  * `Reads` -- a reader takes what was written, whatever follows it, for the value that was meant.
    One lemma for each reader, from the string up to the policy.
  * `Yields` -- all that a reader can return has a property, whatever the text. One lemma for each
    reader on the way from a pattern to a policy.
  * `policies_survive` -- **a policy without blank patterns is read back from its text**, and every
    policy that any text gives is one of those.
-/
import ComponentContainer.Rollback.Written
import Mathlib

namespace ComponentContainer.Rollback

open Json

/-! ## 1. Running readers -/

section

variable {α β : Type}

/-- What the written characters are read as, whatever stands behind them. -/
def Reads (read : Reader α) (written : List Char) (value : α) : Prop :=
  ∀ rest, read (written ++ rest) = .ok (value, rest)

/-- All that is ever returned has the property. -/
def Yields (read : Reader α) (P : α → Prop) : Prop :=
  ∀ cs value rest, read cs = .ok (value, rest) → P value

theorem ok_bind (a : α) (f : α → Except Fault β) : (Except.ok a >>= f) = f a := rfl

/-- A sequence that returns: both its parts do. -/
theorem of_bind_ok {x : Except Fault α} {f : α → Except Fault β} {b : β} (h : x >>= f = .ok b) :
    ∃ a, x = .ok a ∧ f a = .ok b := by
  cases x with
  | error fault => cases h
  | ok a => exact ⟨a, rfl, h⟩

/-- What was written is a whole text. -/
theorem Reads.whole {read : Reader α} {s : String} {value : α} (h : Reads read s.toList value) :
    Json.whole read s = .ok value := by
  have all := h []
  rw [List.append_nil] at all
  simp only [Json.whole, all, ok_bind]
  rfl

theorem Yields.whole {read : Reader α} {P : α → Prop} (h : Yields read P) {s : String} {value : α}
    (returned : Json.whole read s = .ok value) : P value := by
  obtain ⟨⟨value', rest⟩, all, ending⟩ := of_bind_ok returned
  dsimp only at ending
  split at ending
  · cases ending
    exact h _ _ _ all
  · cases ending

/-- Nothing is skipped in front of a character that is no space. -/
theorem skipSpaces_cons {c : Char} (h : isSpace c = false) (cs : List Char) :
    skipSpaces (c :: cs) = c :: cs := by
  simp [skipSpaces, List.dropWhile, h]

theorem enter_of_lt {depth : Nat} (h : 1 < depth) : enter depth = .ok (depth - 1) :=
  if_neg (by omega)

theorem close_cons {c : Char} (h : isSpace c = false) (rest : List Char) :
    close c (c :: rest) = .ok rest := by
  simp [close, skipSpaces_cons h]

theorem toList_quote (s : String) : (quote s).toList = '"' :: quoteChars s.toList := by
  simp [quote]

end

/-! ## 2. Strings, rules and demands -/

theorem reads_string (s : String) : Reads readString (quote s).toList s := by
  intro rest
  have skipped := skipSpaces_cons (show isSpace '"' = false by decide) (quoteChars s.toList ++ rest)
  simp only [toList_quote, List.cons_append, readString, skipped, readText_quoteChars]
  simp [Except.map]

theorem reads_keyword (d : Demand) : Reads readKeyword (quote d.keyword).toList d := by
  intro rest
  have known : demandOf d.keyword = .ok d := by cases d <;> rfl
  simp only [readKeyword, reads_string d.keyword rest, ok_bind, known]
  rfl

theorem reads_demand (depth : Nat) (d : Demand) :
    Reads (readDemand depth) (quote d.keyword).toList d := by
  intro rest
  have word := reads_keyword d rest
  have skipped := skipSpaces_cons (show isSpace '"' = false by decide)
    (quoteChars d.keyword.toList ++ rest)
  simp only [toList_quote, List.cons_append] at word ⊢
  simp only [readDemand, skipped, word]

/-- A rule whose pattern is not blank is read back. -/
theorem reads_rule {r : Rule} (h : Text.isBlank r.pattern = false) :
    Reads readRule r.toJson.compact.toList r := by
  intro rest
  have text := reads_string r.pattern rest
  simp only [Rule.toJson, compact, readRule, text, ok_bind, ruleOf, Rule.ofPattern, h,
    Bool.false_eq_true, if_false]
  rfl

/-! ## 3. Members -/

section

variable {known : List String} {key : String}

/-- What stands in front of a key: nothing, or the comma after the member before. -/
def separator (first : Bool) : List Char := if first then [] else [',']

/-- At the next key, if it is one of those that are known. -/
theorem nextField_key (first : Bool) (h : key ∈ known) (rest : List Char) :
    nextField known first (separator first ++ (quote key).toList ++ rest) =
      .ok (some key, rest) := by
  have mark (cs : List Char) := skipSpaces_cons (show isSpace '"' = false by decide) cs
  have comma (cs : List Char) := skipSpaces_cons (show isSpace ',' = false by decide) cs
  have member : nextMember first (separator first ++ (quote key).toList ++ rest) =
      .ok (true, quoteChars key.toList ++ rest) := by
    cases first <;> simp [separator, toList_quote, nextMember, mark, comma]
  simp only [nextField, nextKnown, nextKey, member, ok_bind, if_true, readText_quoteChars,
    String.ofList_toList, pure, Except.pure, h]

/-- At the end of an object. -/
theorem nextField_end (first : Bool) (rest : List Char) :
    nextField known first ('}' :: rest) = .ok (none, '}' :: rest) := by
  have skipped := skipSpaces_cons (show isSpace '}' = false by decide) rest
  simp [nextField, nextKnown, nextKey, nextMember, skipped, ok_bind, pure, Except.pure]

theorem endObject_end (rest : List Char) : endObject known ('}' :: rest) = .ok rest := by
  have closed := close_cons (show isSpace '}' = false by decide) rest
  simp only [endObject, nextField_end, ok_bind]
  exact closed

theorem colon_cons (rest : List Char) : colon (':' :: rest) = .ok rest := close_cons (by decide) rest

end

/-- A rule with a demand as it is written. -/
theorem toList_policyRule (r : PolicyRule) :
    r.toJson.compact.toList =
      '{' :: (separator true ++ (quote "kind").toList ++ (':' :: ((quote r.demand.keyword).toList ++
        (separator false ++ (quote "pattern").toList ++
          (':' :: (r.rule.toJson.compact.toList ++ ['}'])))))) := by
  simp [PolicyRule.toJson, compact, compactMembers, separator]

/-- **A rule with a demand is read back.** -/
theorem reads_policyRule {depth : Nat} (room : 1 < depth) {r : PolicyRule}
    (h : Text.isBlank r.rule.pattern = false) :
    Reads (readPolicyRule depth) r.toJson.compact.toList r := by
  intro rest
  have skipped (cs : List Char) := skipSpaces_cons (show isSpace '{' = false by decide) cs
  have kind := nextField_key true (show "kind" ∈ ruleKeys by decide)
  have pattern := nextField_key false (show "pattern" ∈ ruleKeys by decide)
  have demand := reads_demand (depth - 1) r.demand
  have rule := reads_rule h
  simp only [Reads] at demand rule
  rw [toList_policyRule]
  simp only [List.cons_append, List.append_assoc] at kind pattern ⊢
  simp only [readPolicyRule, skipped, enter_of_lt room, ok_bind, readRuleMembers, kind, colon_cons,
    demand, pattern, rule, List.nil_append, ne_eq, not_true_eq_false, if_false,
    endObject_end]
  rfl

/-! ## 4. Lists and policies -/

/-- The elements of a list and its end as they are written, from the first element or from a later
    one. -/
def elementsText : Bool → List PolicyRule → List Char
  | _, [] => [']']
  | first, r :: rules => separator first ++ r.toJson.compact.toList ++ elementsText false rules

/-- There are no more elements than characters. -/
theorem length_le_elementsText (first : Bool) (rules : List PolicyRule) :
    rules.length < (elementsText first rules).length := by
  induction rules generalizing first with
  | nil => simp [elementsText]
  | cons r rules ih =>
      have later := ih false
      have own : 0 < r.toJson.compact.toList.length := by simp [toList_policyRule]
      simp only [elementsText, List.length_append, List.length_cons]
      omega

theorem toList_elements (rules : List PolicyRule) :
    (",".intercalate (compactAll (rules.map PolicyRule.toJson))).toList ++ [']'] =
      elementsText true rules := by
  cases rules with
  | nil => simp [compactAll, elementsText]
  | cons r rules =>
      simp only [elementsText, separator, if_true, List.nil_append]
      induction rules generalizing r with
      | nil => simp [compactAll, elementsText]
      | cons r' rules ih =>
          have later := ih r'
          simp only [List.map_cons, compactAll] at later ⊢
          simp only [String.intercalate_cons_cons, String.toList_append, List.append_assoc, later]
          simp [elementsText, separator]

/-- **The rules are read back in their order**, if there are steps enough. -/
theorem reads_rulesFrom {depth : Nat} (room : 1 < depth) {rules : List PolicyRule}
    (h : ∀ r ∈ rules, Text.isBlank r.rule.pattern = false) {steps : Nat}
    (enough : rules.length < steps) (first : Bool) :
    Reads (readRulesFrom depth steps first) (elementsText first rules) rules := by
  induction rules generalizing steps first with
  | nil =>
      intro rest
      obtain ⟨steps, rfl⟩ := Nat.exists_eq_add_of_lt enough
      have skipped := skipSpaces_cons (show isSpace ']' = false by decide) rest
      have done := close_cons (show isSpace ']' = false by decide) rest
      simp only [elementsText, List.singleton_append, readRulesFrom, nextElement, skipped, ok_bind,
        Bool.false_eq_true, if_false, done]
      rfl
  | cons r rules ih =>
      intro rest
      obtain ⟨steps, rfl⟩ : ∃ more, steps = more + 1 := ⟨steps - 1, by simp at enough; omega⟩
      have own := reads_policyRule room (h r List.mem_cons_self)
      have later := ih (fun r' mem => h r' (List.mem_cons_of_mem r mem))
        (by simpa using enough) false rest
      have element : nextElement first (separator first ++ (r.toJson.compact.toList ++
          (elementsText false rules ++ rest))) =
          .ok (true, r.toJson.compact.toList ++ (elementsText false rules ++ rest)) := by
        have comma (cs : List Char) := skipSpaces_cons (show isSpace ',' = false by decide) cs
        have brace (cs : List Char) := skipSpaces_cons (show isSpace '{' = false by decide) cs
        cases first <;> simp [separator, toList_policyRule, nextElement, comma, brace]
      simp only [Reads] at own
      simp only [elementsText, List.append_assoc, readRulesFrom, element, ok_bind, if_true, own,
        later]
      rfl

theorem reads_rules {depth : Nat} (room : 2 < depth) {rules : List PolicyRule}
    (h : ∀ r ∈ rules, Text.isBlank r.rule.pattern = false) :
    Reads (readRules depth) ('[' :: elementsText true rules) rules := by
  intro rest
  have skipped := skipSpaces_cons (show isSpace '[' = false by decide)
    (elementsText true rules ++ rest)
  have enough : rules.length < (elementsText true rules ++ rest).length + 1 := by
    have := length_le_elementsText true rules
    simp only [List.length_append]
    omega
  have read := reads_rulesFrom (show 1 < depth - 1 by omega) h enough true rest
  simp only [List.cons_append, readRules, skipped, enter_of_lt (show 1 < depth by omega), ok_bind,
    read]

theorem toList_policy (p : Policy) :
    p.toJson.compact.toList =
      '{' :: (separator true ++ (quote "rules").toList ++
        (':' :: (('[' :: elementsText true p.rules) ++ ['}']))) := by
  rw [← toList_elements]
  simp [Policy.toJson, compact, compactMembers, separator]

/-- **A policy is read back.** -/
theorem reads_policy {depth : Nat} (room : 3 < depth) {p : Policy}
    (h : ∀ r ∈ p.rules, Text.isBlank r.rule.pattern = false) :
    Reads (readPolicy depth) p.toJson.compact.toList p := by
  intro rest
  have skipped (cs : List Char) := skipSpaces_cons (show isSpace '{' = false by decide) cs
  have key := nextField_key true (show "rules" ∈ policyKeys by decide)
  have rules := reads_rules (show 2 < depth - 1 by omega) h
  simp only [Reads] at rules
  rw [toList_policy]
  simp only [List.cons_append, List.append_assoc] at key rules ⊢
  simp only [readPolicy, skipped, enter_of_lt (show 1 < depth by omega), ok_bind, key, colon_cons,
    rules, List.nil_append, endObject_end]
  rfl

theorem ofJson_compact {p : Policy} (h : ∀ r ∈ p.rules, Text.isBlank r.rule.pattern = false) :
    Policy.ofJson p.toJson.compact = .ok p :=
  (reads_policy (show 3 < maxDepth by decide) h).whole

/-! ## 5. What texts can give -/

/-- The pattern of the rule is not blank. -/
def PolicyRule.Filled (r : PolicyRule) : Prop := Text.isBlank r.rule.pattern = false

theorem filled_of_ruleOf {pattern : String} {r : Rule} (h : ruleOf pattern = .ok r) :
    Text.isBlank r.pattern = false := by
  cases blank : Text.isBlank pattern with
  | true => simp [ruleOf, Rule.ofPattern, blank] at h
  | false =>
      simp only [ruleOf, Rule.ofPattern, blank, Bool.false_eq_true, if_false,
        Except.ok.injEq] at h
      rw [← h]
      exact blank

theorem yields_rule : Yields readRule fun r => Text.isBlank r.pattern = false := by
  intro cs r rest h
  obtain ⟨⟨pattern, _⟩, -, h⟩ := of_bind_ok h
  obtain ⟨r', made, h⟩ := of_bind_ok h
  cases h
  exact filled_of_ruleOf made

/-- As an object, whichever member comes first. -/
theorem yields_ruleMembers (depth : Nat) : Yields (readRuleMembers depth) PolicyRule.Filled := by
  intro cs r rest h
  obtain ⟨⟨first, _⟩, -, h⟩ := of_bind_ok h
  dsimp only at h
  split at h
  · cases h
  · obtain ⟨_, -, h⟩ := of_bind_ok h
    obtain ⟨⟨demand, _⟩, -, h⟩ := of_bind_ok h
    obtain ⟨⟨second, _⟩, -, h⟩ := of_bind_ok h
    dsimp only at h
    split at h
    · cases h
    obtain ⟨_, -, h⟩ := of_bind_ok h
    obtain ⟨⟨rule, _⟩, made, h⟩ := of_bind_ok h
    obtain ⟨_, -, h⟩ := of_bind_ok h
    cases h
    exact yields_rule _ _ _ made
  · obtain ⟨_, -, h⟩ := of_bind_ok h
    obtain ⟨⟨pattern, _⟩, -, h⟩ := of_bind_ok h
    obtain ⟨⟨second, _⟩, -, h⟩ := of_bind_ok h
    dsimp only at h
    split at h
    · cases h
    obtain ⟨_, -, h⟩ := of_bind_ok h
    obtain ⟨⟨demand, _⟩, -, h⟩ := of_bind_ok h
    dsimp only at h
    split at h
    · cases h
    · obtain ⟨rule, made, h⟩ := of_bind_ok h
      obtain ⟨_, -, h⟩ := of_bind_ok h
      cases h
      exact filled_of_ruleOf made

/-- As the list of the members' values. -/
theorem yields_ruleValues : Yields readRuleValues PolicyRule.Filled := by
  intro cs r rest h
  obtain ⟨⟨found, _⟩, -, h⟩ := of_bind_ok h
  dsimp only at h
  split at h
  · cases h
  obtain ⟨⟨demand, _⟩, -, h⟩ := of_bind_ok h
  obtain ⟨⟨found, _⟩, -, h⟩ := of_bind_ok h
  dsimp only at h
  split at h
  · cases h
  obtain ⟨⟨rule, _⟩, made, h⟩ := of_bind_ok h
  obtain ⟨_, -, h⟩ := of_bind_ok h
  cases h
  exact yields_rule _ _ _ made

theorem yields_policyRule (depth : Nat) : Yields (readPolicyRule depth) PolicyRule.Filled := by
  intro cs r rest h
  unfold readPolicyRule at h
  split at h
  · obtain ⟨_, -, h⟩ := of_bind_ok h
    exact yields_ruleValues _ _ _ h
  · obtain ⟨_, -, h⟩ := of_bind_ok h
    exact yields_ruleMembers _ _ _ _ h
  · cases h

theorem yields_rulesFrom (depth steps : Nat) (first : Bool) :
    Yields (readRulesFrom depth steps first) fun rules => ∀ r ∈ rules, r.Filled := by
  induction steps generalizing first with
  | zero =>
      intro cs rules rest h
      cases h
  | succ steps ih =>
      intro cs rules rest h
      obtain ⟨⟨found, _⟩, -, h⟩ := of_bind_ok h
      dsimp only at h
      split at h
      · obtain ⟨⟨r, _⟩, own, h⟩ := of_bind_ok h
        obtain ⟨⟨later, _⟩, others, h⟩ := of_bind_ok h
        cases h
        exact List.forall_mem_cons.mpr ⟨yields_policyRule _ _ _ _ own, ih _ _ _ _ others⟩
      · obtain ⟨_, -, h⟩ := of_bind_ok h
        cases h
        exact List.forall_mem_nil _

theorem yields_rules (depth : Nat) :
    Yields (readRules depth) fun rules => ∀ r ∈ rules, r.Filled := by
  intro cs rules rest h
  unfold readRules at h
  split at h
  · obtain ⟨_, -, h⟩ := of_bind_ok h
    exact yields_rulesFrom _ _ _ _ _ _ h
  · cases h

/-- **No text gives a policy with a blank pattern**, in whichever shape it writes the policy. -/
theorem yields_policy (depth : Nat) :
    Yields (readPolicy depth) fun p => ∀ r ∈ p.rules, r.Filled := by
  intro cs p rest h
  unfold readPolicy at h
  split at h
  · obtain ⟨_, -, h⟩ := of_bind_ok h
    obtain ⟨⟨found, _⟩, -, h⟩ := of_bind_ok h
    dsimp only at h
    split at h
    · cases h
    obtain ⟨⟨rules, _⟩, read, h⟩ := of_bind_ok h
    obtain ⟨_, -, h⟩ := of_bind_ok h
    cases h
    exact yields_rules _ _ _ _ read
  · obtain ⟨_, -, h⟩ := of_bind_ok h
    obtain ⟨⟨key, _⟩, -, h⟩ := of_bind_ok h
    dsimp only at h
    split at h
    · cases h
    obtain ⟨_, -, h⟩ := of_bind_ok h
    obtain ⟨⟨rules, _⟩, read, h⟩ := of_bind_ok h
    obtain ⟨_, -, h⟩ := of_bind_ok h
    cases h
    exact yields_rules _ _ _ _ read
  · cases h

theorem filled_of_ofJson {s : String} {p : Policy} (h : Policy.ofJson s = .ok p) :
    ∀ r ∈ p.rules, Text.isBlank r.rule.pattern = false := (yields_policy maxDepth).whole h

/-! ## 6. There and back -/

/-- **Policies survive being written and read.** A policy whose patterns are not blank is read from
    its own text, with the same rules in the same order, their demands and their patterns character
    by character. And a policy that is read from any text has no blank pattern, so that it is read
    again from the text that it is written as. -/
theorem policies_survive :
    (∀ p : Policy, (∀ r ∈ p.rules, Text.isBlank r.rule.pattern = false) →
      Policy.ofJson p.toJson.compact = .ok p) ∧
    ∀ (s : String) (p : Policy), Policy.ofJson s = .ok p →
      (∀ r ∈ p.rules, Text.isBlank r.rule.pattern = false) ∧
        Policy.ofJson p.toJson.compact = .ok p := by
  have back (p : Policy) (filled : ∀ r ∈ p.rules, Text.isBlank r.rule.pattern = false) :
      Policy.ofJson p.toJson.compact = .ok p := ofJson_compact filled
  refine ⟨back, fun s p read => ?_⟩
  have filled := filled_of_ofJson read
  exact ⟨filled, back p filled⟩

/-- A quotation mark, a backslash, a line break, a control and a character of two units, with spaces
    at the ends and one rule twice. -/
def awkward : Policy :=
  ⟨[⟨.noRollback, ⟨"a\"b\\c\n\x01"⟩⟩, ⟨.rollback, ⟨" 🙂 "⟩⟩, ⟨.noRollback, ⟨"a\"b\\c\n\x01"⟩⟩]⟩

/-- A text in another shape: the members in the other order, and the character by its units. -/
def shuffled : String :=
  "\x7b\"rules\":[\x7b\"pattern\":\"\\ud83d\\ude42\", \"kind\":\"rollback\"\x7d]\x7d"

theorem awkward_patterns_survive :
    (∀ r ∈ awkward.rules, Text.isBlank r.rule.pattern = false) ∧
      Policy.ofJson awkward.toJson.compact = .ok awkward ∧
      Policy.ofJson shuffled = .ok ⟨[⟨.rollback, ⟨"🙂"⟩⟩]⟩ ∧
      Policy.ofJson (Policy.toJson ⟨[⟨.rollback, ⟨"🙂"⟩⟩]⟩).compact =
        .ok ⟨[⟨.rollback, ⟨"🙂"⟩⟩]⟩ := by
  have filled : ∀ r ∈ awkward.rules, Text.isBlank r.rule.pattern = false := by decide
  have read : Policy.ofJson shuffled = .ok ⟨[⟨.rollback, ⟨"🙂"⟩⟩]⟩ := by cbv
  exact ⟨filled, policies_survive.1 awkward filled, read, (policies_survive.2 shuffled _ read).2⟩

end ComponentContainer.Rollback
