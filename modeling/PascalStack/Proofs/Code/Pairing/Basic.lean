import PascalStack.Proofs.Code.Supply.Basic
import PascalStack.Proofs.Syntax.Origins
import PascalStack.Proofs.Tree.Respelling

/-!
# Two generators side by side

One generator writes the code of a program and the other that of the program with a name replaced
in one of its routines. As long as the events are undisturbed both write the same instructions: the
cells and types of the second are those of the first, up to the name. The first one serves the
events, so one pass through a program tells both where it has code and whose code is the same.
-/

namespace PascalStack.Code

open Generating Syntax

/-- A dictionary is another one up to the name `x`, which has its value there under the name it has
on the side that gave it. -/
structure Mirrors {α : Type} (x y : String) (origin : Option Side) (d d' : Dictionary α) :
    Prop where
  others : ∀ key, key ≠ .str x → key ≠ .str y → d.find? key = d'.find? key
  own : ∀ side, x = y ∨ From side origin →
    d.find? (.str x) = d'.find? (.str (side.name x y x))
  known : x ≠ y → (d.find? (.str x)).isSome = origin.isSome

variable {clear : Prop} {e : Event} {α β : Type} {t : Tree}

section Mirrors

variable {α : Type} {x y z : String} {origin : Option Side} {d d' : Dictionary α} {side : Side}

theorem mirrors_nil : Mirrors x y none ([] : Dictionary α) [] :=
  ⟨fun _ _ _ => rfl, fun _ _ => rfl, fun _ => rfl⟩

/-- A key and the key in its place: a name as it is spelt on a side, which must be clear to be looked
up, or any key where no name is replaced. -/
inductive Keys (x y : String) (side : Side) (clear : Prop) : Tree → Tree → Prop where
  | same (v : Tree) : x = y → Keys x y side clear v v
  | name (z : String) : (z = x → clear) → z ≠ y →
      Keys x y side clear (.str z) (.str (side.name x y z))

theorem Keys.mono {clear' : Prop} {v v' : Tree} (h : Keys x y side clear v v')
    (weaker : clear → clear') : Keys x y side clear' v v' := by
  cases h with
  | same v same => exact .same v same
  | name z own fresh => exact .name z (fun equal => weaker (own equal)) fresh

theorem keys_name (h : x = y ∨ ((z = x → clear) ∧ y ∉ [z])) :
    Keys x y side clear (.str z) (.str (side.name x y z)) := by
  rcases h with rfl | ⟨own, fresh⟩
  · rw [side.name_self]
    exact .same _ rfl
  · exact .name z own fun equal => fresh (List.mem_singleton.mpr equal.symm)

variable {v v' : Tree}

theorem Mirrors.find? (h : Mirrors x y origin d d') (keys : Keys x y side (From side origin) v v') :
    d.find? v = d'.find? v' := by
  cases keys with
  | same _ same =>
    subst same
    by_cases named : v = .str x
    · rw [named, h.own .outer (.inl rfl)]
      rfl
    · exact h.others v named named
  | name z own fresh =>
    by_cases named : z = x
    · subst named
      exact h.own side (.inr (own rfl))
    · rw [side.name_of_ne named]
      exact h.others _ (fun equal => named (Tree.str.inj equal)) fun equal =>
        fresh (Tree.str.inj equal)

abbrev SameValue {β : Type} (x y : String) (r r' : Except Fault β) : Prop :=
  SameEnd (fun f f' => x = y → f' = f) Eq r r'

theorem Keys.checked (h : Keys x y side clear v v') : v'.checkKey = v.checkKey := by
  cases h <;> rfl

theorem Mirrors.get (h : Mirrors x y origin d d') (keys : Keys x y side (From side origin) v v') :
    SameValue x y (d.get v) (d'.get v') := by
  simp only [Dictionary.get, keys.checked, ← h.find? keys]
  cases keys with
  | same _ same =>
    cases v.checkKey with
    | error f => exact fun _ => rfl
    | ok _ =>
      cases d.find? v with
      | some value => exact rfl
      | none =>
        cases shown : v.shown with
        | error f => exact fun _ => rfl
        | ok text => exact fun _ => rfl
  | name z own fresh =>
    cases d.find? (.str z) with
    | some value => exact rfl
    | none =>
      rintro rfl
      rw [side.name_self]

theorem Mirrors.has (h : Mirrors x y origin d d') (keys : Keys x y side (From side origin) v v') :
    d'.has v' = d.has v := by
  simp only [Dictionary.has, keys.checked, ← h.find? keys]

theorem Mirrors.insert (h : Mirrors x y origin d d') (fresh : x = y ∨ z ≠ y) (value : α) :
    Mirrors x y (if z = x then some side else origin) (d.insert (.str z) value)
      (d'.insert (.str (side.name x y z)) value) := by
  by_cases named : z = x
  · subst named
    rw [if_pos rfl]
    refine ⟨fun key own new => ?_, fun other clear => ?_, fun _ => ?_⟩
    · have spelt : key ≠ .str (side.name z y z) := by
        cases side with
        | outer => exact own
        | inner => rwa [Side.name, if_pos rfl]
      have missed {w : String} (differ : key ≠ .str w) : Tree.same (.str w) key = false := by
        rw [Bool.eq_false_iff]
        exact fun same => differ (Tree.same_str_left.mp same)
      simp only [Dictionary.find?_insert_str, missed own, missed spelt]
      exact h.others key own new
    · have same : other.name z y z = side.name z y z := by
        rcases clear with rfl | clear
        · rw [Side.name_self, Side.name_self]
        · rw [clear side rfl]
      rw [same, Dictionary.find?_insert_self, Dictionary.find?_insert_self]
    · rw [Dictionary.find?_insert_self]
      rfl
  · rw [if_neg named, side.name_of_ne named]
    refine ⟨fun key own new => ?_, fun other clear => ?_, fun differ => ?_⟩
    · simp only [Dictionary.find?_insert_str, h.others key own new]
    · have apart : ¬ z = other.name x y x := by
        cases other with
        | outer => exact named
        | inner =>
          rw [Side.name, if_pos rfl]
          exact fresh.elim (fun same => same ▸ named) id
      simp only [Dictionary.find?_insert_str, Tree.same_str, beq_iff_eq, named, apart, if_false]
      exact h.own other clear
    · simp only [Dictionary.find?_insert_str, Tree.same_str, beq_iff_eq, named, if_false]
      exact h.known differ

theorem Mirrors.of_has (h : Mirrors x y origin d d') (clear : x = y ∨ (z = x → From side origin))
    (has : (d.find? (.str z)).isSome = true) :
    Mirrors x y (if z = x then some side else origin) d d' := by
  by_cases named : z = x
  · subst named
    rw [if_pos rfl]
    refine ⟨h.others, fun other clear' => ?_, fun _ => has⟩
    refine h.own other ?_
    rcases clear with same | clear
    · exact .inl same
    · refine clear'.imp_right fun from_other => ?_
      rw [← from_other side rfl]
      exact clear rfl
  · rwa [if_neg named]

end Mirrors

/-! ## Generators up to a name -/

/-- A generator is another one, up to a name and what was printed. -/
inductive Together (x y : String) (o : Origins) : Generator → Generator → Prop where
  | mk {g : Generator} {globals locals : Dictionary Nat} {types : Dictionary String} {out : String}
      (cells : Mirrors x y o.global g.globals globals) (own : Mirrors x y o.own g.locals locals)
      (declared : Mirrors x y o.declared g.types types)
      (typed : x ≠ y → ∀ z, g.types.find? (.str z) = o.type? z) :
      Together x y o g
        { g with globals := globals, locals := locals, types := types, out := out }

def Stopped (x y : String) (f f' : Fault) (g h : Generator) : Prop :=
  x = y → f' = f ∧ h.code = g.code ∧ h.file = g.file

/-- Two computations that start where `A` holds, with the name replaced in the second: where their
events are undisturbed, they give values related by `V` and end where `B` holds, or both stop. -/
def Paired {α β : Type} (x y : String) (A : Generator → Prop) (m : Generating α)
    (m' : Generating β) (es : List (Side × Event)) (V : α → β → Prop) (B : Generator → Prop) :
    Prop :=
  ∀ o, Undisturbed x y o es →
    Alike (Stopped x y) (fun g h => A g ∧ Together x y o g h) V
      (fun g h => B g ∧ Together x y (o.afterAll x es) g h) m m'

/-- Two computations that are paired, the first of which serves the events. -/
structure Coupled {α β : Type} (x y : String) (A : Generator → Prop) (m : Generating α)
    (m' : Generating β) (es : List (Side × Event)) (V : α → β → Prop) (B : Generator → Prop) :
    Prop where
  serves : Serves A m (es.map Prod.snd) (fun a => ∃ b, V a b) B
  paired : Paired x y A m m' es V B

/-- Two computations that are coupled whatever they give. -/
abbrev Joint {α β : Type} (x y : String) (A : Generator → Prop) (m : Generating α)
    (m' : Generating β) (es : List (Side × Event)) (B : Generator → Prop) : Prop :=
  Coupled x y A m m' es (fun _ _ => True) B

def PairedAt {α β : Type} (x y : String) (side : Side) (s : Site) (m : Generating α)
    (m' : Generating β) (es : List Event) (V : α → β → Prop) : Prop :=
  Paired x y (At s) m m' (side.events es) V (At s)

def CoupledAt {α β : Type} (x y : String) (side : Side) (s : Site) (m : Generating α)
    (m' : Generating β) (es : List Event) (V : α → β → Prop) : Prop :=
  Coupled x y (At s) m m' (side.events es) V (At s)

abbrev JointAt {α β : Type} (x y : String) (side : Side) (s : Site) (m : Generating α)
    (m' : Generating β) (es : List Event) : Prop :=
  CoupledAt x y side s m m' es fun _ _ => True

section Rules

variable {α β γ δ : Type} {x y : String} {A B C : Generator → Prop} {V W : α → β → Prop}
  {U : γ → δ → Prop} {m : Generating α} {m' : Generating β} {es es' : List (Side × Event)}
  {s : Site} {side : Side}

theorem paired_event {e : Event}
    (h : ∀ o g h, (x = y ∨ (e.Clear x o side ∧ y ∉ e.names)) → A g → Together x y o g h →
      EndsAlike (Stopped x y) V (fun g h => B g ∧ Together x y (o.after x side e) g h)
        (m.run g) (m'.run h)) :
    Paired x y A m m' [(side, e)] V B :=
  fun o clear g h' related => h o g h' clear.of_event related.1 related.2

theorem PairedAt.writes {es : List Event} (h : PairedAt x y side s m m' es V) (t : Tree) :
    PairedAt x y side s m m' (.writes t :: es) V := by
  intro o clear
  rcases clear with same | ⟨clear, fresh⟩
  · exact h o (.inl same)
  · exact h o (.inr ⟨clear.2, fun e member => fresh e (List.mem_cons_of_mem _ member)⟩)

theorem Together.retag {o o' : Origins} {g h : Generator} (t : Together x x o g h) :
    Together x x o' g h := by
  obtain ⟨cells, own, declared, typed⟩ := t
  refine ⟨⟨cells.others, fun side _ => cells.own side (.inl rfl), fun differ => ?_⟩,
    ⟨own.others, fun side _ => own.own side (.inl rfl), fun differ => ?_⟩,
    ⟨declared.others, fun side _ => declared.own side (.inl rfl), fun differ => ?_⟩,
    fun differ => ?_⟩ <;> exact absurd rfl differ

theorem Together.site {o : Origins} {g h : Generator} (t : Together x y o g h) (site : At s g) :
    At s h := by
  cases t
  exact site.modify ⟨rfl, rfl, rfl⟩

theorem CoupledAt.mk {es : List Event} (serves : ServesAt s m es fun _ => True)
    (paired : PairedAt x y side s m m' es V) (related : ∀ a, ∃ b, V a b) :
    CoupledAt x y side s m m' es V := by
  refine ⟨?_, paired⟩
  rw [map_snd_events]
  exact serves.imp fun a _ => related a

theorem CoupledAt.served {es : List Event} (h : CoupledAt x y side s m m' es V) :
    ServesAt s m es fun _ => True := by
  have serves := h.serves
  rw [map_snd_events] at serves
  exact serves.imp fun _ _ => trivial

theorem coupled_pure {a : α} {b : β} (h : V a b) : Coupled x y A (pure a) (pure b) [] V A :=
  ⟨serves_pure ⟨b, h⟩, fun _ _ => alike_pure h⟩

theorem Coupled.bind {k : α → Generating γ} {k' : β → Generating δ}
    (first : Coupled x y A m m' es V B)
    (second : ∀ a b, V a b → Coupled x y B (k a) (k' b) es' U C) :
    Coupled x y A (m >>= k) (m' >>= k') (es ++ es') U C := by
  constructor
  · rw [List.map_append]
    exact first.serves.bind fun a ⟨b, value⟩ => (second a b value).serves
  · intro o clear
    obtain ⟨before, after⟩ := clear.of_append
    rw [origins_afterAll_append]
    exact (first.paired o before).bind fun a b value => (second a b value).paired _ after

theorem Coupled.imp (h : Coupled x y A m m' es V B) (weaker : ∀ a b, V a b → W a b) :
    Coupled x y A m m' es W B :=
  ⟨h.serves.imp fun a ⟨b, value⟩ => ⟨b, weaker a b value⟩,
    fun o clear => (h.paired o clear).imp weaker⟩

theorem Coupled.weaken {A' B' : Generator → Prop} (h : Coupled x y A m m' es V B)
    (before : ∀ g, A' g → A g) (after : ∀ g, B g → B' g) : Coupled x y A' m m' es V B' :=
  ⟨h.serves.weaken before after, fun o clear => (h.paired o clear).weaken
    (fun g _ both => both.imp_left (before g)) fun g _ both => both.imp_left (after g)⟩

theorem Coupled.discard (h : Coupled x y A m m' es V B) :
    Joint x y A (discard m) (discard m') es B :=
  ⟨h.serves.discard.imp fun _ _ => ⟨(), trivial⟩, fun o clear => (h.paired o clear).discard⟩

theorem Coupled.ending (h : Coupled x y A m m' es V B) {c : γ} {d : δ} (values : U c d) :
    Coupled x y A (do
      let _ ← m
      return c) (do
      let _ ← m'
      return d) es U B := by
  have whole := h.bind fun _ _ _ => (coupled_pure values : Coupled x y B (pure c) (pure d) [] U B)
  rwa [List.append_nil] at whole

theorem Coupled.ended (h : Coupled x y A m m' es V B) (c : γ) (d : δ) :
    Joint x y A (do
      let _ ← m
      return c) (do
      let _ ← m'
      return d) es B :=
  h.ending trivial

theorem Coupled.intro (h : ∀ g, A g → Coupled x y A m m' es V B) : Coupled x y A m m' es V B :=
  ⟨fun k g knows holds => (h g holds).serves k g knows holds,
    fun o clear g h' t => (h g t.1).paired o clear g h' t⟩

theorem Coupled.of_run {n : Generating α} {n' : Generating β} (h : Coupled x y A m m' es V B)
    (first : ∀ g, A g → n.run g = m.run g)
    (second : ∀ o g h, A g → Together x y o g h → n'.run h = m'.run h) :
    Coupled x y A n n' es V B := by
  refine ⟨h.serves.of_run fun _ g _ => first g, fun o clear g h' t => ?_⟩
  rw [first g t.1, second o g h' t.1 t.2]
  exact h.paired o clear g h' t

theorem CoupledAt.of_run {es : List Event} {n : Generating α} {n' : Generating β}
    (h : CoupledAt x y side s m m' es V) (first : ∀ g, At s g → n.run g = m.run g)
    (second : ∀ g, At s g → n'.run g = m'.run g) : CoupledAt x y side s n n' es V :=
  Coupled.of_run h first fun _ _ h site t => second h (t.site site)

theorem CoupledAt.bind {es es' : List Event} {k : α → Generating γ} {k' : β → Generating δ}
    (first : CoupledAt x y side s m m' es V)
    (second : ∀ a b, V a b → CoupledAt x y side s (k a) (k' b) es' U) :
    CoupledAt x y side s (m >>= k) (m' >>= k') (es ++ es') U := by
  rw [CoupledAt, side_events_append]
  exact Coupled.bind first second

theorem CoupledAt.seq {es : List Event} {k : α → Generating γ} {k' : β → Generating δ}
    (first : CoupledAt x y side s m m' [] V)
    (second : ∀ a b, V a b → CoupledAt x y side s (k a) (k' b) es U) :
    CoupledAt x y side s (m >>= k) (m' >>= k') es U :=
  CoupledAt.bind first second

theorem CoupledAt.cons {es : List Event} {k : α → Generating γ} {k' : β → Generating δ}
    (first : CoupledAt x y side s m m' [e] V)
    (second : ∀ a b, V a b → CoupledAt x y side s (k a) (k' b) es U) :
    CoupledAt x y side s (m >>= k) (m' >>= k') (e :: es) U :=
  CoupledAt.bind first second

theorem CoupledAt.followed {es : List Event} {k : α → Generating γ} {k' : β → Generating δ}
    (first : CoupledAt x y side s m m' es V)
    (second : ∀ a b, V a b → CoupledAt x y side s (k a) (k' b) [] U) :
    CoupledAt x y side s (m >>= k) (m' >>= k') es U := by
  have whole := CoupledAt.bind first second
  rwa [List.append_nil] at whole

/-- What comes around an event that fails does not matter. -/
theorem CoupledAt.of_fails {es es' : List Event}
    (h : CoupledAt x y side s m m' (es ++ .fails :: es') V) :
    CoupledAt x y side s m m' [.fails] V := by
  constructor
  · intro k g knows site
    have unsupplied : ¬ SuppliedFrom k ((side.events (es ++ .fails :: es')).map Prod.snd) := by
      rw [map_snd_events, suppliedFrom_append]
      exact fun both => (suppliedFrom_cons.mp both.2).1
    refine ⟨fun supplied => absurd (suppliedFrom_cons.mp supplied).1 id, fun _ => ?_⟩
    exact (h.serves k g knows site).2 unsupplied
  · intro o clear
    rcases clear.of_event with rfl | ⟨never, _⟩
    · exact (h.paired o (.inl rfl)).weaken (fun _ _ => id) fun _ _ => And.imp_right Together.retag
    · exact never.elim

end Rules

/-! ## Printing and writing -/

section Writing

variable {x y : String} {A : Generator → Prop} {o : Origins} {g h : Generator} {side : Side}
  {s : Site}

theorem Together.stopped (t : Together x y o g h) {f f' : Fault} (same : x = y → f' = f) :
    Stopped x y f f' g h := by
  cases t
  exact fun equal => ⟨same equal, rfl, rfl⟩

theorem coupled_stops {m : Generating α} {m' : Generating β} {V : α → β → Prop} {f : Fault}
    (first : ∀ g, m.run g = .error f g) (second : ∀ g, m'.run g = .error f g) :
    CoupledAt x y side s m m' [.fails] V := by
  refine ⟨serves_fails fun k g _ _ => ⟨f, g, first g⟩, fun o _ g h t => ?_⟩
  rw [first, second]
  exact t.2.stopped fun _ => rfl

theorem coupled_modify {B : Generator → Prop} {f f' : Generator → Generator}
    (moves : ∀ g, A g → B (f g))
    (same : ∀ g, (f g).globals = g.globals ∧ (f g).locals = g.locals ∧ (f g).types = g.types)
    (alike : ∀ g globals locals types out, ∃ out',
      f' { g with globals := globals, locals := locals, types := types, out := out } =
        { f g with globals := globals, locals := locals, types := types, out := out' }) :
    Joint x y A (modify f) (modify f') [] B := by
  refine ⟨(serves_modify moves same).imp fun _ _ => ⟨(), trivial⟩, fun o _ => ?_⟩
  refine alike_modify fun g h related => ⟨moves g related.1, ?_⟩
  obtain ⟨globals, locals, types⟩ := same g
  obtain ⟨-, cells, own, declared, typed⟩ := related
  obtain ⟨out', equal⟩ := alike g _ _ _ _
  rw [equal]
  exact ⟨globals ▸ cells, locals ▸ own, types ▸ declared, types ▸ typed⟩

theorem coupled_print (stable : ∀ g out, A g → A { g with out := out }) (text text' : String) :
    Joint x y A (line text) (line text') [] A :=
  coupled_modify (fun g => stable g _) (fun _ => ⟨rfl, rfl, rfl⟩) fun _ _ _ _ _ => ⟨_, rfl⟩

theorem coupled_line (text text' : String) : JointAt x y side s (line text) (line text') [] :=
  coupled_print (fun _ _ site => site.modify ⟨rfl, rfl, rfl⟩) text text'

theorem paired_write (stable : ∀ g code, A g → A { g with code := code }) (code : List Instruction) :
    Paired x y A (emit code) (emit code) [] (fun _ _ => True) A := by
  intro o clear g h related
  cases rendered : render code with
  | error f =>
    rw [run_emit_error rendered, run_emit_error rendered]
    exact related.2.stopped fun _ => rfl
  | ok text =>
    rw [run_emit_ok rendered, run_emit_ok rendered]
    obtain ⟨holds, t⟩ := related
    obtain ⟨cells, own, declared, typed⟩ := t
    exact ⟨trivial, stable g _ holds, cells, own, declared, typed⟩

theorem coupled_write (stable : ∀ g code, A g → A { g with code := code })
    (code : List Instruction) (plain : code.all Instruction.isPlain = true) :
    Joint x y A (emit code) (emit code) [] A :=
  ⟨(serves_write stable plain).imp fun _ _ => ⟨(), trivial⟩, paired_write stable code⟩

theorem coupled_emit (code : List Instruction) (plain : code.all Instruction.isPlain = true) :
    JointAt x y side s (emit code) (emit code) [] :=
  coupled_write (fun _ _ site => site.modify ⟨rfl, rfl, rfl⟩) code plain

theorem coupled_emit_tree {code : List Instruction}
    (ok : ∀ text, t.text = .ok text → ∃ text', render code = .ok text')
    (error : ∀ f, t.text = .error f → ∃ f', render code = .error f') :
    JointAt x y side s (emit code) (emit code) [.writes t] := by
  have paired : PairedAt x y side s (emit code) (emit code) [] (fun _ _ => True) :=
    paired_write (fun _ _ site => site.modify ⟨rfl, rfl, rfl⟩) code
  exact .mk (serves_emit_tree ok error) (paired.writes t) fun _ => ⟨(), trivial⟩

theorem coupled_push (t : Tree) :
    JointAt x y side s (emit [.push t]) (emit [.push t]) [.writes t] := by
  refine coupled_emit_tree (fun text written => ?_) fun f written => ?_
  · exact ⟨"pushi " ++ text ++ "\n" ++ "", by simp only [render, Instruction.text, written]; rfl⟩
  · exact ⟨f, by simp only [render, Instruction.text, written]; rfl⟩

theorem coupled_listing {t' : Tree} (same : SameFault t.text t'.text) :
    JointAt x y side s (do line (← ofExcept t.text)) (do line (← ofExcept t'.text))
      [.writes t] := by
  refine .mk (serves_listing t) (fun o clear => ?_) fun _ => ⟨(), trivial⟩
  refine (alike_ofExcept same fun f f' g h equal related => ?_).bind fun text text' _ => ?_
  · exact related.2.stopped fun _ => equal.symm
  · exact (coupled_line text text' : JointAt x y side s _ _ []).paired o undisturbed_nil

end Writing

section Cells

variable {x y z : String} {A : Generator → Prop} {o : Origins} {g h : Generator} {side : Side}
  {s : Site} {v v' : Tree}

theorem ends_ofExcept {r r' : Except Fault α} (t : A g ∧ Together x y o g h)
    (same : SameValue x y r r') (give : α → β) :
    EndsAlike (Stopped x y) Eq (fun g h => A g ∧ Together x y o g h)
      ((do return give (← ofExcept r) : Generating β).run g)
      ((do return give (← ofExcept r') : Generating β).run h) := by
  cases r with
  | ok a =>
    cases r' with
    | ok a' => exact ⟨congrArg give same, t⟩
    | error f' => exact same
  | error f =>
    cases r' with
    | ok a' => exact same
    | error f' => exact t.2.stopped same

theorem ends_globalCell (t : A g ∧ Together x y o g h)
    (keys : Keys x y side (From side o.global) v v') :
    EndsAlike (Stopped x y) Eq (fun g h => A g ∧ Together x y o g h)
      ((globalCell v).run g) ((globalCell v').run h) := by
  have same : SameValue x y (g.globals.get v) (h.globals.get v') := by
    obtain ⟨-, cells, -, -, -⟩ := t
    exact cells.get keys
  exact ends_ofExcept t same Cell.program

theorem ends_localCell (t : A g ∧ Together x y o g h)
    (keys : Keys x y side (From side o.own) v v') :
    EndsAlike (Stopped x y) Eq (fun g h => A g ∧ Together x y o g h)
      ((localCell v).run g) ((localCell v').run h) := by
  have same : SameValue x y (g.locals.get v) (h.locals.get v') := by
    obtain ⟨-, -, own, -, -⟩ := t
    exact own.get keys
  exact ends_ofExcept t same Cell.routine

theorem ends_sourceCell (t : A g ∧ Together x y o g h)
    (keys : Keys x y side (o.Found side .nearest) v v') :
    EndsAlike (Stopped x y) Eq (fun g h => A g ∧ Together x y o g h)
      ((sourceCell v).run g) ((sourceCell v').run h) := by
  have inside := ends_localCell t (keys.mono And.left)
  have same : h.locals.has v' = g.locals.has v := by
    obtain ⟨-, -, own, -, -⟩ := t
    exact own.has (keys.mono And.left)
  simp only [sourceCell, hasLocal, EStateM.run_bind, EStateM.run_get, same]
  cases has : g.locals.has v with
  | error f => exact t.2.stopped fun _ => rfl
  | ok present =>
    cases present with
    | true => exact inside
    | false =>
      have outside : Keys x y side (From side o.global) v v' := by
        cases keys with
        | same _ equal => exact .same _ equal
        | name z clear fresh =>
          refine .name z (fun named => (clear named).2 ?_) fresh
          obtain ⟨-, -, own, -, -⟩ := t
          subst named
          have absent : (g.locals.find? (.str z)).isSome = false := by
            simpa [Dictionary.has, Tree.checkKey_str, bind, Except.bind, pure, Except.pure] using has
          rw [own.known fresh] at absent
          simpa using absent
      exact ends_globalCell t outside

/-- A way to find cells: by names, as they are spelt on the two sides, and not by anything else. -/
structure Locates (x y : String) (side : Side) (s : Site) (lookup : Tree → Generating Cell)
    (reach : Reach) : Prop where
  named : ∀ z, CoupledAt x y side s (lookup (.str z)) (lookup (.str (side.name x y z)))
    [.uses reach z] Eq
  other : ∀ v, (∀ z, v ≠ .str z) → CoupledAt x y side s (lookup v) (lookup v) [.fails] Eq

section Locates

variable {lookup lookup' : Tree → Generating Cell} {reach : Reach}

theorem locates_of (serves : ∀ z, ServesAt s (lookup (.str z)) [.uses reach z] fun _ => True)
    (stops : ∀ k g v, Knows k g → (∀ z, v ≠ .str z) → ∃ f, (lookup v).run g = .error f g)
    (ends : ∀ o g h v v', At s g ∧ Together x y o g h → Keys x y side (o.Found side reach) v v' →
      EndsAlike (Stopped x y) Eq (fun g h => At s g ∧ Together x y o g h)
        ((lookup v).run g) ((lookup v').run h)) :
    Locates x y side s lookup reach := by
  refine ⟨fun z => ?_, fun v none => ?_⟩
  · refine .mk (serves z) (paired_event fun o g h clear site t => ?_) fun cell => ⟨cell, rfl⟩
    exact ends o g h _ _ ⟨site, t⟩ (keys_name clear)
  · refine .mk (serves_fails fun k g knows _ => ?_) (paired_event fun o g h clear site t => ?_)
      fun cell => ⟨cell, rfl⟩
    · obtain ⟨f, stopped⟩ := stops k g v knows none
      exact ⟨f, g, stopped⟩
    · exact ends o g h v v ⟨site, t⟩ (.same v (clear.resolve_right fun never => never.1))

theorem Locates.of_run (h : Locates x y side s lookup reach)
    (same : ∀ v g, At s g → (lookup' v).run g = (lookup v).run g) :
    Locates x y side s lookup' reach :=
  ⟨fun z => (h.named z).of_run (same _) (same _), fun v none => (h.other v none).of_run (same v)
    (same v)⟩

theorem locates_globalCell : Locates x y side s globalCell .program :=
  locates_of serves_globalCell (fun _ _ _ => globalCell_error) fun _ _ _ _ _ => ends_globalCell

theorem locates_localCell : Locates x y side s localCell .routine :=
  locates_of serves_localCell (fun _ _ _ => localCell_error) fun _ _ _ _ _ => ends_localCell

theorem locates_sourceCell : Locates x y side s sourceCell .nearest :=
  locates_of serves_sourceCell (fun _ _ _ => sourceCell_error) fun _ _ _ _ _ => ends_sourceCell

theorem locates_variableCell : Locates x y side s variableCell s.reading := by
  cases inside : s.inside with
  | false =>
    simp only [Site.reading, inside]
    refine locates_globalCell.of_run fun v g site => ?_
    simp [variableCell, EStateM.run_bind, EStateM.run_get, site.inside, inside]
  | true =>
    simp only [Site.reading, inside]
    refine locates_sourceCell.of_run fun v g site => ?_
    simp [variableCell, sourceCell, EStateM.run_bind, EStateM.run_get, site.inside, inside]

theorem locates_loopCell : Locates x y side s loopCell s.counting := by
  cases inside : s.inside with
  | false =>
    simp only [Site.counting, inside]
    refine locates_globalCell.of_run fun v g site => ?_
    simp [loopCell, EStateM.run_bind, EStateM.run_get, site.inside, inside]
  | true =>
    simp only [Site.counting, inside]
    refine locates_localCell.of_run fun v g site => ?_
    simp [loopCell, EStateM.run_bind, EStateM.run_get, site.inside, inside]

end Locates

theorem ends_typeOf (t : A g ∧ Together x y o g h)
    (keys : Keys x y side (From side o.declared) (.str z) v') :
    EndsAlike (Stopped x y)
      (fun τ τ' => τ' = τ ∧ (x ≠ y → o.type? z = some τ))
      (fun g h => A g ∧ Together x y o g h) ((typeOf (.str z)).run g) ((typeOf v').run h) := by
  have same : SameValue x y (g.types.get (.str z)) (h.types.get v') := by
    obtain ⟨-, -, -, declared, -⟩ := t
    exact declared.get keys
  have known : ∀ τ, g.types.get (.str z) = .ok τ → x ≠ y → o.type? z = some τ := by
    intro τ found differ
    obtain ⟨-, -, -, -, typed⟩ := t
    rw [← typed differ]
    exact Dictionary.find?_of_get found
  simp only [typeOf, EStateM.run_bind, EStateM.run_get]
  cases found : g.types.get (.str z) with
  | ok τ =>
    rw [found] at same
    cases found' : h.types.get v' with
    | ok τ' =>
      rw [found'] at same
      exact ⟨⟨same.symm, known τ found⟩, t⟩
    | error f' =>
      rw [found'] at same
      exact same
  | error f =>
    rw [found] at same
    cases found' : h.types.get v' with
    | ok τ' =>
      rw [found'] at same
      exact same
    | error f' =>
      rw [found'] at same
      exact t.2.stopped same

theorem ends_newGlobal (t : At s g ∧ Together x y o g h) (fresh : x = y ∨ z ≠ y) :
    EndsAlike (Stopped x y) Eq
      (fun g h => At s g ∧ Together x y (o.after x side (.stores false z)) g h)
      ((newGlobal (.str z)).run g) ((newGlobal (.str (side.name x y z))).run h) := by
  obtain ⟨site, cells, own, declared, typed⟩ := t
  refine ⟨rfl, site.modify ⟨rfl, rfl, rfl⟩, ?_⟩
  exact ⟨cells.insert fresh g.nextGlobal, own, declared, typed⟩

theorem ends_newLocal (t : At s g ∧ Together x y o g h) (fresh : x = y ∨ z ≠ y) :
    EndsAlike (Stopped x y) Eq
      (fun g h => At s g ∧ Together x y (o.after x side (.stores true z)) g h)
      ((newLocal (.str z)).run g) ((newLocal (.str (side.name x y z))).run h) := by
  obtain ⟨site, cells, own, declared, typed⟩ := t
  refine ⟨rfl, site.modify ⟨rfl, rfl, rfl⟩, ?_⟩
  exact ⟨cells, own.insert fresh g.nextLocal, declared, typed⟩

theorem run_ensureGlobal (z : String) (g : Generator) :
    (ensureGlobal (.str z)).run g = if (g.globals.find? (.str z)).isSome then
      (globalCell (.str z)).run g else (newGlobal (.str z)).run g := by
  simp only [ensureGlobal, EStateM.run_bind, EStateM.run_get, Dictionary.has, Tree.checkKey_str]
  cases (g.globals.find? (.str z)).isSome <;> rfl

theorem run_ensureLocal (z : String) (g : Generator) :
    (ensureLocal (.str z)).run g = if (g.locals.find? (.str z)).isSome then
      (localCell (.str z)).run g else (newLocal (.str z)).run g := by
  simp only [ensureLocal, hasLocal, EStateM.run_bind, EStateM.run_get, Dictionary.has,
    Tree.checkKey_str]
  cases (g.locals.find? (.str z)).isSome <;> rfl

theorem keys_given (origin : Option Side) (fresh : x = y ∨ z ≠ y) :
    Keys x y side (From side (if z = x then some side else origin)) (.str z)
      (.str (side.name x y z)) := by
  rcases fresh with rfl | fresh
  · rw [side.name_self]
    exact .same _ rfl
  · refine .name z (fun named => ?_) fresh
    rw [if_pos named]
    exact fun _ given => (Option.mem_some_iff.mp given).symm

theorem paired_ensure (own : Bool) (z : String) :
    PairedAt x y side s (if own then ensureLocal (.str z) else ensureGlobal (.str z))
      (if own then ensureLocal (.str (side.name x y z)) else ensureGlobal (.str (side.name x y z)))
      [.stores own z] Eq := by
  refine paired_event fun o g h clear site t => ?_
  have fresh : x = y ∨ z ≠ y :=
    clear.imp_right fun clear equal => clear.2 (List.mem_singleton.mpr equal.symm)
  have again := clear.imp_right And.left
  obtain ⟨cells, locals, declared, typed⟩ := t
  cases own with
  | false =>
    simp only [Bool.false_eq_true, if_false, run_ensureGlobal, ← cells.find? (keys_name clear)]
    cases has : (g.globals.find? (.str z)).isSome with
    | true =>
      exact ends_globalCell ⟨site, cells.of_has again has, locals, declared, typed⟩
        (keys_given o.global fresh)
    | false => exact ends_newGlobal ⟨site, cells, locals, declared, typed⟩ fresh
  | true =>
    simp only [if_true, run_ensureLocal, ← locals.find? (keys_name clear)]
    cases has : (g.locals.find? (.str z)).isSome with
    | true =>
      exact ends_localCell ⟨site, cells, locals.of_has again has, declared, typed⟩
        (keys_given o.own fresh)
    | false => exact ends_newLocal ⟨site, cells, locals, declared, typed⟩ fresh

theorem coupled_ensure (own : Bool) (z : String) :
    CoupledAt x y side s (if own then ensureLocal (.str z) else ensureGlobal (.str z))
      (if own then ensureLocal (.str (side.name x y z)) else ensureGlobal (.str (side.name x y z)))
      [.stores own z] Eq :=
  .mk (serves_ensure own z) (paired_ensure own z) fun cell => ⟨cell, rfl⟩

theorem coupled_targetCell (z : String) :
    CoupledAt x y side s (targetCell (.str z)) (targetCell (.str (side.name x y z)))
      [.stores s.inside z] Eq := by
  have run (v : Tree) (g : Generator) (site : At s g) :
      (targetCell v).run g = (if s.inside then ensureLocal v else ensureGlobal v).run g := by
    cases inside : s.inside <;>
      simp [targetCell, EStateM.run_bind, EStateM.run_get, site.inside, inside]
  exact CoupledAt.of_run (coupled_ensure s.inside z) (run _) (run _)

end Cells

end PascalStack.Code
