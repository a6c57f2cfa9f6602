import Mathlib.Data.List.Forall2
import PascalStack.Proofs.Pascal.Derivation

/-!
# Preferred derivations

The grammar is ambiguous: an `else` may belong to one of several conditionals, and declarations
may be taken as absent in two places. A derivation is preferred if an `else` belongs to the
nearest conditional and declarations stand in the first place they fit. Whatever is derived has a
preferred derivation.
-/

namespace PascalStack.Pascal

open LR

def next : List TokenKind → Terminal TokenKind → Terminal TokenKind
  | [], after => after
  | k :: _, _ => .token k

@[simp] theorem next_nil (after : Terminal TokenKind) : next [] after = after := rfl

@[simp] theorem next_cons (k : TokenKind) (kinds : List TokenKind) (after : Terminal TokenKind) :
    next (k :: kinds) after = .token k := rfl

theorem next_append (kinds rest : List TokenKind) (after : Terminal TokenKind) :
    next (kinds ++ rest) after = next kinds (next rest after) := by
  cases kinds <;> rfl

/-- A rule is kept before `parts` and the terminal `after`: declarations are absent only before
routines, and not before a `var`; a conditional without an `else` is not before one. -/
def Kept (r : Nat) (parts : List Part) (after : Terminal TokenKind) : Prop :=
  (r = 6 → parts.head? = some (.phrase .routines) ∧ after ≠ .token .kwVar) ∧
    (r = 75 → after ≠ .token .kwElse)

inductive Preferred : List Part → List TokenKind → Terminal TokenKind → Prop
  | nil (after : Terminal TokenKind) : Preferred [] [] after
  | token (k : TokenKind) {parts : List Part} {kinds : List TokenKind}
      {after : Terminal TokenKind} :
      Preferred parts kinds after → Preferred (.token k :: parts) (k :: kinds) after
  | phrase {r : Nat} {rule : Rule} {parts : List Part} {own kinds : List TokenKind}
      {after : Terminal TokenKind} :
      rule? r = some rule → Kept r parts (next kinds after) →
      Preferred rule.parts own (next kinds after) → Preferred parts kinds after →
      Preferred (.phrase rule.makes :: parts) (own ++ kinds) after

variable {parts more : List Part} {kinds rest : List TokenKind} {after : Terminal TokenKind}
  {n : Phrase} {r : Nat} {rule : Rule} {closed : Bool} {words : List (List TokenKind)}

theorem Preferred.yields (h : Preferred parts kinds after) : Yields parts kinds := by
  induction h with
  | nil => exact .nil
  | token k _ ih => exact ih.token k
  | phrase known _ _ _ own rest => exact .phrase known own rest

theorem Preferred.cons {own : List TokenKind} (first : Preferred [.phrase n] own (next kinds after))
    (rest : Preferred parts kinds after) : Preferred (.phrase n :: parts) (own ++ kinds) after := by
  cases first with
  | phrase known kept derived none =>
    cases none
    rw [List.append_nil]
    refine .phrase known ⟨fun absent => ?_, kept.2⟩ derived rest
    -- Alone, nothing is before routines.
    have before := (kept.1 absent).1
    cases before

theorem Preferred.single (known : rule? r = some rule) (declares : r ≠ 6)
    (closes : r = 75 → after ≠ .token .kwElse) (own : Preferred rule.parts kinds after) :
    Preferred [.phrase rule.makes] kinds after := by
  have h : Preferred [.phrase rule.makes] (kinds ++ []) after :=
    .phrase known ⟨fun absent => absurd absent declares, closes⟩ own (.nil after)
  rwa [List.append_nil] at h

def Phrase.headed : Phrase → Bool
  | .statementPart | .routine | .procedure | .procedureHeading | .function | .functionHeading => true
  | _ => false

def headed : List Part → Bool
  | [] => false
  | .token k :: _ => k != .kwVar
  | .phrase n :: parts => n.headed || n == .routines && headed parts

theorem headed_of_rule (known : rule? r = some rule) :
    (rule.makes.headed = true → headed rule.parts = true) ∧
      (rule.makes = .routines → rule.parts = [] ∨ headed rule.parts = true) := by
  have checked := forall_rules (P := fun _ rule =>
    (!rule.makes.headed || headed rule.parts) &&
      (rule.makes != .routines || rule.parts.isEmpty || headed rule.parts))
    (by decide +kernel) known
  simp only [Bool.and_eq_true, Bool.or_eq_true, Bool.not_eq_true', bne_iff_ne, ne_eq,
    List.isEmpty_iff] at checked
  refine ⟨fun h => ?_, fun h => ?_⟩
  · rcases checked.1 with h' | h'
    · rw [h] at h'; cases h'
    · exact h'
  · rcases checked.2 with (h' | h') | h'
    · exact absurd h h'
    · exact .inl h'
    · exact .inr h'

theorem next_ne_var (h : Yields parts kinds) (first : headed parts = true)
    (after : Terminal TokenKind) : next kinds after ≠ .token .kwVar := by
  induction h generalizing after with
  | nil => cases first
  | token k _ _ =>
    simp only [headed, bne_iff_ne] at first
    simpa using first
  | @phrase r rule parts own kinds known derived _ ownFirst restFirst =>
    rw [next_append]
    simp only [headed, Bool.or_eq_true, Bool.and_eq_true, beq_iff_eq] at first
    rcases first with heads | ⟨routines, rest⟩
    · exact ownFirst ((headed_of_rule known).1 heads) _
    · rcases (headed_of_rule known).2 routines with empty | heads
      · rw [empty] at derived
        cases derived
        exact restFirst rest after
      · exact ownFirst heads _

theorem routines_head (h : Yields [.phrase .routines] kinds) :
    kinds = [] ∨ ∀ after, next kinds after ≠ .token .kwVar := by
  obtain ⟨r, rule, known, makes, derived⟩ := h.exists_rule
  rcases (headed_of_rule known).2 makes with empty | heads
  · rw [empty] at derived
    cases derived
    exact .inl rfl
  · exact .inr (next_ne_var derived heads)

def Phrase.trails : Phrase → Bool
  | .statement | .ifStatement | .whileStatement | .forStatement | .statements | .caseOption => true
  | _ => false

def Phrase.dangles : Phrase → Bool
  | .statement | .ifStatement | .whileStatement | .forStatement => true
  | _ => false

def Absorbs (n : Phrase) (word : List TokenKind) : Prop :=
  ∀ (branch : List TokenKind) (after : Terminal TokenKind), after ≠ .token .kwElse →
    Preferred [.phrase .statement] branch after →
    Preferred [.phrase n] (word ++ .kwElse :: branch) after

/-- A word of a phrase with the preferred derivations it has. Absent declarations have none by
themselves. Before an `else` a statement either is preferred as it stands or takes the `else`. -/
structure Fair (n : Phrase) (word : List TokenKind) : Prop where
  derived : n = .varPart ∧ word = [] ∨ ∀ after, (n.trails = true → after ≠ .token .kwElse) →
    Preferred [.phrase n] word after
  dangling : n.dangles = true →
    Preferred [.phrase n] word (.token .kwElse) ∨ Absorbs n word

def Word : Part → List TokenKind → Prop
  | .token k, word => word = [k]
  | .phrase n, word => Fair n word

/-- What follows a phrase that may end with a conditional is not an `else`; `closed` says that the
whole row may be before one. -/
def parted (closed : Bool) : List Part → Bool
  | [] => !closed
  | .token k :: _ => k != .kwElse
  | .phrase _ :: _ => false

def orderly (closed : Bool) : List Part → Bool
  | [] => true
  | .token _ :: parts => orderly closed parts
  | .phrase n :: parts =>
    n != .varPart && (!n.trails || parted closed parts) && orderly closed parts

theorem next_ne_else (fair : List.Forall₂ Word parts words) (ok : parted closed parts = true)
    (free : closed = false → next rest after ≠ .token .kwElse) :
    next (words.flatten ++ rest) after ≠ .token .kwElse := by
  cases fair with
  | nil =>
    simp only [parted, Bool.not_eq_true'] at ok
    exact free ok
  | @cons part word _ _ first _ =>
    cases part with
    | token k =>
      simp only [parted, bne_iff_ne] at ok
      have word_eq : word = [k] := first
      subst word_eq
      simpa using ok
    | phrase n => cases ok

theorem Preferred.ofWords (fair : List.Forall₂ Word parts words) (ok : orderly closed parts = true)
    (free : closed = false → next rest after ≠ .token .kwElse) (tail : Preferred more rest after) :
    Preferred (parts ++ more) (words.flatten ++ rest) after := by
  induction fair with
  | nil => exact tail
  | @cons part word parts words first others ih =>
    cases part with
    | token k =>
      have word_eq : word = [k] := first
      subst word_eq
      exact (ih ok).token k
    | phrase n =>
      simp only [orderly, Bool.and_eq_true, bne_iff_ne, Bool.or_eq_true, Bool.not_eq_true'] at ok
      obtain ⟨⟨declares, trailing⟩, ok⟩ := ok
      have fairWord : Fair n word := first
      rw [List.flatten_cons, List.append_assoc]
      refine Preferred.cons ?_ (ih ok)
      rcases fairWord.derived with ⟨absent, _⟩ | derived
      · exact absurd absent declares
      · refine derived _ fun trails => ?_
        rcases trailing with stops | parted
        · rw [trails] at stops; cases stops
        · exact next_ne_else others parted free

theorem exists_last_word {m : Phrase} (fair : List.Forall₂ Word (parts ++ [.phrase m]) words) :
    ∃ before word, words = before ++ [word] ∧ List.Forall₂ Word parts before ∧ Fair m word := by
  induction parts generalizing words with
  | nil =>
    cases fair with
    | cons first none =>
      cases none
      exact ⟨[], _, rfl, .nil, first⟩
  | cons part parts ih =>
    cases fair with
    | cons first others =>
      obtain ⟨before, word, rfl, fairBefore, fairWord⟩ := ih others
      exact ⟨_ :: before, word, rfl, .cons first fairBefore, fairWord⟩

/-! ## Rules whose words are taken as they stand -/

/-- The rules that have to be chosen with care: the blocks, absent declarations, and the
conditional with an `else`. -/
def careful (r : Nat) : Bool := r == 3 || r == 4 || r == 6 || r == 74

theorem orderly_of_rule (known : rule? r = some rule) (plain : careful r = false) :
    orderly (!rule.makes.trails) rule.parts = true := by
  have checked := forall_rules (P := fun r rule =>
    careful r || orderly (!rule.makes.trails) rule.parts) (by decide +kernel) known
  simpa [plain] using checked

theorem trails_of_conditional (known : rule? r = some rule) (conditional : r = 75) :
    rule.makes.trails = true := by
  have checked := forall_rules (P := fun r rule => r != 75 || rule.makes.trails)
    (by decide +kernel) known
  simpa [conditional] using checked

theorem Preferred.ofRule (known : rule? r = some rule) (plain : careful r = false)
    (fair : List.Forall₂ Word rule.parts words)
    (before : rule.makes.trails = true → after ≠ .token .kwElse) :
    Preferred [.phrase rule.makes] words.flatten after := by
  have declares : r ≠ 6 := by rintro rfl; cases plain
  refine .single known declares (fun h => before (trails_of_conditional known h)) ?_
  have h : Preferred (rule.parts ++ []) (words.flatten ++ []) after :=
    .ofWords fair (orderly_of_rule known plain) (fun h => before (by simpa using h)) (.nil after)
  simpa using h

def trailing (parts : List Part) : Bool :=
  match parts.getLast? with
  | some (.phrase m) => m.dangles && orderly true parts.dropLast
  | _ => false

theorem exists_last_of_trailing (h : trailing parts = true) :
    ∃ before m, parts = before ++ [.phrase m] ∧ m.dangles = true ∧ orderly true before = true := by
  unfold trailing at h
  split at h
  case h_1 m last =>
    rw [Bool.and_eq_true] at h
    have split_eq := List.dropLast_append_getLast? (Part.phrase m) last
    exact ⟨parts.dropLast, m, split_eq.symm, h.1, h.2⟩
  case h_2 => cases h

theorem orderly_or_trailing (known : rule? r = some rule) (plain : careful r = false)
    (full : r ≠ 75) (dangles : rule.makes.dangles = true) :
    orderly true rule.parts = true ∨ trailing rule.parts = true := by
  have checked := forall_rules (P := fun r rule =>
    careful r || r == 75 || !rule.makes.dangles || orderly true rule.parts || trailing rule.parts)
    (by decide +kernel) known
  simpa [plain, full, dangles] using checked

theorem dangling_of_rule (known : rule? r = some rule) (plain : careful r = false) (full : r ≠ 75)
    (fair : List.Forall₂ Word rule.parts words) (dangles : rule.makes.dangles = true) :
    Preferred [.phrase rule.makes] words.flatten (.token .kwElse) ∨
      Absorbs rule.makes words.flatten := by
  have declares : r ≠ 6 := by rintro rfl; cases plain
  have wrap {kinds : List TokenKind} {after : Terminal TokenKind} :
      Preferred rule.parts kinds after → Preferred [.phrase rule.makes] kinds after :=
    Preferred.single known declares fun h => absurd h full
  rcases orderly_or_trailing known plain full dangles with ok | ends
  · left
    have h : Preferred (rule.parts ++ []) (words.flatten ++ []) (.token .kwElse) :=
      .ofWords fair ok (fun h => by cases h) (.nil _)
    exact wrap (by simpa using h)
  · obtain ⟨parts, m, parts_eq, dangles, ok⟩ := exists_last_of_trailing ends
    rw [parts_eq] at fair
    obtain ⟨before, word, rfl, fairBefore, fairWord⟩ := exists_last_word fair
    have extend {kinds : List TokenKind} {after : Terminal TokenKind}
        (h : Preferred [.phrase m] kinds after) :
        Preferred [.phrase rule.makes] (before.flatten ++ kinds) after := by
      apply wrap
      rw [parts_eq]
      exact Preferred.ofWords fairBefore ok (fun h => by cases h) h
    rw [List.flatten_append, List.flatten_singleton]
    rcases fairWord.dangling dangles with closed | absorbs
    · exact .inl (extend closed)
    · right
      intro branch after before derived
      rw [List.append_assoc]
      exact extend (absorbs branch after before derived)

section Conditionals

variable {condition branch first second : List TokenKind} {after : Terminal TokenKind}

theorem Preferred.opening (fair : Fair .expression condition) (tail : Preferred more rest after) :
    Preferred (.token .kwIf :: .phrase .expression :: .token .kwThen :: more)
      (.kwIf :: (condition ++ .kwThen :: rest)) after := by
  refine .token _ (.cons ?_ (.token _ tail))
  rcases fair.derived with ⟨absent, _⟩ | derived
  · cases absent
  · exact derived _ fun trails => by cases trails

theorem Preferred.ifThen (fair : Fair .expression condition) (free : after ≠ .token .kwElse)
    (body : Preferred [.phrase .statement] branch after) :
    Preferred [.phrase .ifStatement] (.kwIf :: (condition ++ .kwThen :: branch)) after :=
  .single (r := 75) rfl (by decide) (fun _ => free) (.opening fair body)

theorem Preferred.ifThenElse (fair : Fair .expression condition)
    (body : Preferred [.phrase .statement] first (.token .kwElse))
    (other : Preferred [.phrase .statement] second after) :
    Preferred [.phrase .ifStatement]
      (.kwIf :: (condition ++ .kwThen :: (first ++ .kwElse :: second))) after :=
  .single (r := 74) rfl (by decide) (fun h => by cases h)
    (.opening fair (.cons body (.token _ other)))

theorem Fair.statement (fair : Fair .statement branch) (free : after ≠ .token .kwElse) :
    Preferred [.phrase .statement] branch after := by
  rcases fair.derived with ⟨absent, _⟩ | derived
  · cases absent
  · exact derived after fun _ => free

theorem fair_ifThen (fair : Fair .expression condition) (body : Fair .statement branch) :
    Fair .ifStatement (.kwIf :: (condition ++ .kwThen :: branch)) where
  derived := .inr fun after h => .ifThen fair (h rfl) (body.statement (h rfl))
  dangling _ := by
    right
    intro other after free derived
    simp only [List.cons_append, List.append_assoc]
    rcases body.dangling rfl with closed | absorbs
    · exact .ifThenElse fair closed derived
    · exact .ifThen fair free (absorbs other after free derived)

theorem fair_ifThenElse (fair : Fair .expression condition) (body : Fair .statement first)
    (other : Fair .statement second)
    (shorter : ∀ kinds : List TokenKind, kinds.length = (first ++ .kwElse :: second).length →
      Yields [.phrase .statement] kinds → Fair .statement kinds) :
    Fair .ifStatement (.kwIf :: (condition ++ .kwThen :: (first ++ .kwElse :: second))) := by
  rcases body.dangling rfl with closed | absorbs
  · refine ⟨.inr fun after h => .ifThenElse fair closed (other.statement (h rfl)), fun _ => ?_⟩
    rcases other.dangling rfl with ends | takes
    · exact .inl (.ifThenElse fair closed ends)
    · right
      intro last after free derived
      simp only [List.cons_append, List.append_assoc]
      exact .ifThenElse fair closed (takes last after free derived)
  · have whole := absorbs second .finish (by simp) (other.statement (by simp))
    exact fair_ifThen fair (shorter _ rfl whole.yields)

end Conditionals

section Blocks

variable {first routines second body : List TokenKind}

theorem Fair.declare (fair : Fair .varPart first)
    (absent : first = [] → parts.head? = some (.phrase .routines) ∧ next rest after ≠ .token .kwVar)
    (tail : Preferred parts rest after) :
    Preferred (.phrase .varPart :: parts) (first ++ rest) after := by
  rcases fair.derived with ⟨_, rfl⟩ | derived
  · exact .phrase (r := 6) rfl ⟨fun _ => absent rfl, fun h => by cases h⟩ (.nil _) tail
  · exact .cons (derived _ fun trails => by cases trails) tail

theorem Fair.whole {word : List TokenKind} (fair : Fair n word) (declares : n ≠ .varPart)
    (closed : n.trails = false) (after : Terminal TokenKind) :
    Preferred [.phrase n] word after := by
  rcases fair.derived with ⟨absent, _⟩ | derived
  · exact absurd absent declares
  · exact derived after fun trails => by rw [trails] at closed; cases closed

theorem fair_block_of_preferred (known : rule? r = some rule) (makes : rule.makes = .block)
    (declares : r ≠ 6) (full : r ≠ 75) (h : ∀ after, Preferred rule.parts kinds after) :
    Fair .block kinds where
  derived := .inr fun after _ =>
    makes ▸ .single known declares (fun h => absurd h full) (h after)
  dangling h := by cases h

theorem fair_block (declared : Fair .varPart first) (fairRoutines : Fair .routines routines)
    (fairBody : Fair .statementPart body) : Fair .block (first ++ (routines ++ body)) := by
  refine fair_block_of_preferred (r := 3) rfl rfl (by decide) (by decide) fun after => ?_
  have statements := fairBody.whole (by simp) rfl after
  have tail : Preferred [.phrase .routines, .phrase .statementPart] (routines ++ body) after :=
    .cons (fairRoutines.whole (by simp) rfl _) statements
  exact declared.declare (fun _ => ⟨rfl, next_ne_var tail.yields rfl after⟩) tail

theorem fair_block_twice (declared : Fair .varPart first) (fairRoutines : Fair .routines routines)
    (again : Fair .varPart second) (fairBody : Fair .statementPart body) :
    Fair .block (first ++ (routines ++ (second ++ body))) := by
  by_cases last : second = []
  · subst last
    exact fair_block declared fairRoutines fairBody
  have routinesYield := (fairRoutines.whole (by simp) rfl .finish).yields
  by_cases only : first = [] ∧ routines = []
  · obtain ⟨rfl, rfl⟩ := only
    have h : Fair .block (second ++ ([] ++ body)) := fair_block again fairRoutines fairBody
    exact h
  refine fair_block_of_preferred (r := 4) rfl rfl (by decide) (by decide) fun after => ?_
  have tail : Preferred [.phrase .varPart, .phrase .statementPart] (second ++ body) after :=
    again.declare (fun absent => absurd absent last) (fairBody.whole (by simp) rfl after)
  refine declared.declare (fun absent => ⟨rfl, ?_⟩)
    (.cons (fairRoutines.whole (by simp) rfl _) tail)
  rw [next_append]
  rcases routines_head routinesYield with empty | head
  · exact absurd ⟨absent, empty⟩ only
  · exact head _

end Blocks

theorem fair_of_words {r : Nat} {rule : Rule} {words : List (List TokenKind)}
    (known : rule? r = some rule) (fair : List.Forall₂ Word rule.parts words)
    (shorter : ∀ kinds : List TokenKind, kinds.length < words.flatten.length →
      Yields [.phrase .statement] kinds → Fair .statement kinds) :
    Fair rule.makes words.flatten := by
  by_cases plain : careful r = false
  · by_cases conditional : r = 75
    · subst conditional
      obtain rfl : rules[74] = rule := Option.some_inj.mp known
      obtain _ | ⟨h, _ | ⟨fairCondition, _ | ⟨h', _ | ⟨fairBranch, _ | _⟩⟩⟩⟩ := fair
      cases h
      cases h'
      change Fair .ifStatement _
      simpa using fair_ifThen fairCondition fairBranch
    · exact ⟨.inr fun after before => .ofRule known plain fair before,
        dangling_of_rule known plain conditional fair⟩
  · simp only [careful, Bool.not_eq_false, Bool.or_eq_true, beq_iff_eq] at plain
    rcases plain with ((rfl | rfl) | rfl) | rfl
    · obtain rfl : rules[2] = rule := Option.some_inj.mp known
      obtain _ | ⟨declared, _ | ⟨fairRoutines, _ | ⟨fairBody, _ | _⟩⟩⟩ := fair
      change Fair .block _
      simpa using fair_block declared fairRoutines fairBody
    · obtain rfl : rules[3] = rule := Option.some_inj.mp known
      obtain _ | ⟨declared, _ | ⟨fairRoutines, _ | ⟨again, _ | ⟨fairBody, _ | _⟩⟩⟩⟩ := fair
      change Fair .block _
      simpa using fair_block_twice declared fairRoutines again fairBody
    · obtain rfl : rules[5] = rule := Option.some_inj.mp known
      cases fair
      exact ⟨.inl ⟨rfl, rfl⟩, fun h => by cases h⟩
    · obtain rfl : rules[73] = rule := Option.some_inj.mp known
      obtain _ | ⟨h, _ | ⟨fairCondition, _ | ⟨h', _ | ⟨fairFirst, _ | ⟨h'', _ | ⟨fairSecond,
        _ | _⟩⟩⟩⟩⟩⟩ := fair
      cases h
      cases h'
      cases h''
      have h := fair_ifThenElse fairCondition fairFirst fairSecond fun kinds length_eq =>
        shorter kinds (by simp_all; omega)
      change Fair .ifStatement _
      simpa using h

theorem Yields.exists_words (h : Yields parts kinds) :
    ∃ words, List.Forall₂ Word parts words ∧ kinds = words.flatten := by
  -- The outer induction is on the length: a conditional may be derived anew, from a shorter word.
  obtain ⟨bound, within⟩ : ∃ bound, kinds.length < bound := ⟨_, Nat.lt_succ_self _⟩
  induction bound generalizing parts kinds with
  | zero => omega
  | succ bound shorter =>
    induction h with
    | nil => exact ⟨[], .nil, rfl⟩
    | token k _ ih =>
      obtain ⟨words, fair, rfl⟩ := ih (by simp at within; omega)
      exact ⟨[k] :: words, .cons rfl fair, rfl⟩
    | phrase known _ _ ownWords restWords =>
      simp only [List.length_append] at within
      obtain ⟨ownWords, ownFair, rfl⟩ := ownWords (by omega)
      obtain ⟨words, fair, rfl⟩ := restWords (by omega)
      refine ⟨_ :: words, .cons (fair_of_words known ownFair fun kinds less derived => ?_) fair, rfl⟩
      obtain ⟨words, single, rfl⟩ := shorter derived (by omega)
      obtain _ | ⟨fairWord, _ | _⟩ := single
      have word : Fair .statement _ := fairWord
      simpa using word

theorem Sentence.preferred (h : Sentence kinds) : Preferred [.phrase .program] kinds .finish := by
  obtain ⟨words, fair, rfl⟩ := Yields.exists_words h
  obtain _ | ⟨fairWord, _ | _⟩ := fair
  have word : Fair .program _ := fairWord
  simpa using word.whole (by simp) rfl .finish

end PascalStack.Pascal
