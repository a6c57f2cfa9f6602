import PascalStack.Compiler
import PascalStack.Proofs.Analysis.Renaming
import PascalStack.Proofs.Code.Pairing.Programs
import PascalStack.Proofs.Pascal.Recasing
import PascalStack.Proofs.Simplify.Respelling

/-!
# Reserved words in other letters

A source text and the text with reserved words in other letters are parsed to trees that differ in
the spelling of operators, directions and types. No later stage notices a respelling that respects
its comparisons, so both texts give the same exit status and the same code file, as long as the
operators that are compared letter by letter, and the direction `to`, stay in the same manner.
-/

namespace PascalStack

open Syntax

-- The stages are never computed when terms are compared.
attribute [local irreducible] Pascal.parse Simplify.simplify Analysis.analyze Code.Generator.new
  Code.generateProgram

variable {α α' β β' : Type} {ρ : Respelling}

namespace Code

theorem suits_of_unnoticed (h : ρ.Unnoticed) (x : String) (side : Side) : Suits x x side ρ where
  toModest := h.toModest
  name z := by rw [h.name, side.name_self]
  operator op := by
    rcases h.operator op with same | ⟨old, new⟩
    · rw [same]
    · rw [ofOperator?_unknown old, ofOperator?_unknown new]
  direction := h.direction
  word := h.small

theorem spares_of_unnoticed (h : ρ.Unnoticed) (f : String) : Spares ρ f :=
  fun z => by rw [h.name]

structure SameCode (g g' : Generator) : Prop where
  code : g'.code = g.code
  file : g'.file = g.file

theorem generateProgram_respell (h : ρ.Unnoticed) (p : Program) (file : String) :
    EndsAlike (fun f f' g g' => f = f' ∧ SameCode g g') (fun _ _ => True) SameCode
      ((generateProgram p.tree).run { file := file })
      ((generateProgram (p.respell ρ).tree).run { file := file }) := by
  have block := coupled_block (suits_of_unnoticed h "" .outer) p.block
    ⟨p.block.hasRoutines, false, none⟩ nofun fun f _ => spares_of_unnoticed h f
  have start : Before ⟨p.block.hasRoutines, false, none⟩ p.block { file := file } :=
    ⟨rfl, Bool.false_or _, rfl⟩
  rcases ((coupled_program p (p.respell ρ) block).paired {} (.inl rfl) { file := file }
    { file := file } ⟨start, together_start file⟩).cases with
    ⟨_, g, _, g', run, run', _, _, together⟩ | ⟨f, g, f', g', run, run', stopped⟩
  · rw [run, run']
    cases together
    exact ⟨trivial, rfl, rfl⟩
  · rw [run, run']
    obtain ⟨fault, code, file⟩ := stopped rfl
    exact ⟨fault.symm, code, file⟩

end Code

namespace Compiler

/-- Two commands that leave the same files from the same files, and that give related values or stop
with the same fault. -/
abbrev CompilesAlike (V : α → α' → Prop) (m : Compiling α) (m' : Compiling α') : Prop :=
  Alike (fun f f' d d' => f = f' ∧ d.files = d'.files) (fun d d' => d.files = d'.files) V
    (fun d d' => d.files = d'.files) m m'

variable {V : α → α' → Prop} {m m' : Compiling α} {s s' : String} {t : Tree}

section Rules

theorem compilesAlike_ofExcept {x : Except Fault α} {x' : Except Fault α'} (h : SameEnd Eq V x x') :
    CompilesAlike V (ofExcept x) (ofExcept x') :=
  alike_ofExcept h fun _ _ _ _ fault files => ⟨fault, files⟩

theorem compilesAlike_same (x : Except Fault α) :
    CompilesAlike Eq (ofExcept x : Compiling α) (ofExcept x) := by
  cases x with
  | ok a => exact alike_pure rfl
  | error f => exact alike_throw fun _ _ files => ⟨rfl, files⟩

theorem compilesAlike_printing {c : Printing α} {c' : Printing α'} (h : PrintsAlike V c c') :
    CompilesAlike V (printing c) (printing c') := by
  refine alike_get fun d d' files => ?_
  rcases (h d.out d'.out trivial).cases with
    ⟨a, out, a', out', run, run', value, _⟩ | ⟨f, out, f', out', run, run', fault⟩
  · rw [run, run']
    exact ⟨value, files⟩
  · rw [run, run']
    exact ⟨fault, files⟩

theorem CompilesAlike.symm (h : CompilesAlike Eq m m') : CompilesAlike Eq m' m := by
  intro d d' files
  rcases (h d' d files.symm).cases with
    ⟨a, _, a', _, run, run', value, files⟩ | ⟨f, _, f', _, run, run', fault, files⟩
  · rw [run, run']
    exact ⟨value.symm, files.symm⟩
  · rw [run, run']
    exact ⟨fault.symm, files.symm⟩

theorem CompilesAlike.trans {m'' : Compiling α} (first : CompilesAlike Eq m m')
    (second : CompilesAlike Eq m' m'') : CompilesAlike Eq m m'' := by
  intro d d'' files
  have end' := second d d'' files
  rcases (first d d rfl).cases with
    ⟨a, _, a', _, run, run', value, kept⟩ | ⟨f, _, f', _, run, run', fault, kept⟩
  · rw [run'] at end'
    rcases end'.cases with ⟨_, _, a'', _, same, run'', value', kept'⟩ | ⟨_, _, _, _, same, _⟩
    · cases same
      rw [run, run'']
      exact ⟨value.trans value', kept.trans kept'⟩
    · cases same
  · rw [run'] at end'
    rcases end'.cases with ⟨_, _, _, _, same, _⟩ | ⟨_, _, f'', _, same, run'', fault', kept'⟩
    · cases same
    · cases same
      rw [run, run'']
      exact ⟨fault.trans fault', kept.trans kept'⟩

theorem CompilesAlike.run {m m' : Compiling α} (h : CompilesAlike Eq m m') :
    (run m).1 = (run m').1 ∧ (run m).2.files = (run m').2.files := by
  unfold Compiler.run
  rcases (h {} {} rfl).cases with
    ⟨a, _, a', _, run, run', value, files⟩ | ⟨f, _, f', _, run, run', fault, files⟩
  · rw [run, run']
    exact ⟨congrArg Except.ok value, files⟩
  · rw [run, run']
    exact ⟨congrArg Except.error fault, files⟩

end Rules

theorem compilesAlike_parsing (recased : Recased s s') (manner : SameManner s s') :
    CompilesAlike (fun t t' => (Pascal.parse 1 s).tree = .ok t ∧ (Pascal.parse 1 s').tree = .ok t' ∧
        t.respell Respelling.plain = t'.respell Respelling.plain) (parsing s) (parsing s') := by
  have trees := Pascal.parse_recased recased manner 1
  exact Alike.bind (V := fun _ _ => True) (alike_modify fun _ _ files => files) fun _ _ _ =>
    compilesAlike_ofExcept trees.remember

theorem compilesAlike_analyzing (h : ρ.Unnoticed) (t : Tree) :
    CompilesAlike (fun r r' => r.1 = r'.1) (analyzing t) (analyzing (t.respell ρ)) := by
  have operators (op : String) :
      Analysis.operatorTable (ρ.operator op) = Analysis.operatorTable op := by
    rcases h.operator op with same | ⟨old, new⟩
    · rw [same]
    · rw [operatorTable_unknown old, operatorTable_unknown new]
  have same : (runAnalyzer (Analysis.analyze t) {}).1 =
      (runAnalyzer (Analysis.analyze (t.respell ρ)) {}).1 := by
    unfold runAnalyzer
    rcases Analysis.analyses_follow (.ofSpelling ρ (funext h.name) h.routine operators h.capital)
      Analysis.settled_fresh t with
      ⟨b, b', run, run', level, -⟩ | ⟨f, b, b', run, run', -⟩
    · rw [run, run', level.errors.isEmpty_eq]
    · rw [run, run']
  exact (alike_modify fun _ _ files => files : CompilesAlike (fun _ _ => True) _ _).bind
    fun _ _ _ => alike_pure same

theorem codeText_eq {g g' : Code.Generator} (h : Code.SameCode g g') :
    codeText g = codeText g' := by
  rw [codeText, codeText, h.code]

theorem compilesAlike_generating (h : ρ.Unnoticed) (path : String) (p : Program) :
    CompilesAlike (fun r r' => r.1 = r'.1) (generating path p.tree)
      (generating path (p.respell ρ).tree) := by
  unfold generating
  cases new : Code.Generator.new path with
  | error f => exact fun _ _ files => ⟨rfl, files⟩
  | ok g =>
    obtain ⟨file, rfl⟩ := Code.eq_of_new new
    have same : (runGenerator (Code.generateProgram p.tree) { file := file }).1 =
          (runGenerator (Code.generateProgram (p.respell ρ).tree) { file := file }).1 ∧
        Code.SameCode (runGenerator (Code.generateProgram p.tree) { file := file }).2
          (runGenerator (Code.generateProgram (p.respell ρ).tree) { file := file }).2 := by
      unfold runGenerator
      rcases (Code.generateProgram_respell h p file).cases with
        ⟨_, _, _, _, run, run', _, same⟩ | ⟨f, _, f', _, run, run', fault, same⟩
      · rw [run, run']
        exact ⟨rfl, same⟩
      · rw [run, run']
        exact ⟨congrArg Except.error fault, same⟩
    refine Alike.bind (V := fun g g' => g = { file := file } ∧ g' = { file := file })
      (fun _ _ files => ⟨⟨rfl, rfl⟩, files⟩) ?_
    rintro _ _ ⟨rfl, rfl⟩
    refine Alike.bind (V := fun _ _ => True) (alike_modify fun d d' files => ?_) fun _ _ _ =>
      alike_pure same.1
    dsimp only
    exact congr (congr (congrArg putFile files) same.2.file.symm) (codeText_eq same.2)

/-! ## The compiler -/

section Lines

variable {V : α → α' → Prop} {m : Compiling α} {m' : Compiling α'}

theorem CompilesAlike.after_line (h : CompilesAlike V m m') (text text' : String) :
    CompilesAlike V (do line text; m) (do line text'; m') :=
  Alike.bind (V := fun _ _ => True) (alike_modify fun _ _ files => files) fun _ _ _ => h

theorem CompilesAlike.after_outline (h : CompilesAlike V m m') (t : Tree) :
    CompilesAlike V (do line (← ofExcept t.outline); m)
      (do line (← ofExcept (t.respell ρ).outline); m') :=
  (compilesAlike_ofExcept (Tree.sameFault_outlineAt 0 t)).bind fun text text' _ =>
    h.after_line text text'

end Lines

theorem compileTree_program (h : ρ.Unnoticed) (path : String) (p : Program) :
    CompilesAlike Eq (compileTree path p.tree) (compileTree path (p.tree.respell ρ)) := by
  unfold compileTree
  refine CompilesAlike.after_outline ?_ p.tree
  rw [p.respell_tree h.toModest]
  refine CompilesAlike.after_line (CompilesAlike.after_line
    ((compilesAlike_printing (Simplify.simplify_program_respell h p)).bind ?_) _ _) _ _
  rintro _ _ ⟨q, rfl, rfl⟩
  rw [← q.respell_tree h.toModest]
  refine CompilesAlike.after_line (CompilesAlike.after_line (CompilesAlike.after_outline
    (CompilesAlike.after_line ?_ _ _) q.tree) _ _) _ _
  refine (compilesAlike_analyzing h q.tree).bind fun r r' same => ?_
  rw [same]
  refine (compilesAlike_same r'.1).bind ?_
  rintro accepted _ rfl
  cases accepted with
  | false => exact CompilesAlike.after_line (alike_pure rfl) _ _
  | true =>
    refine CompilesAlike.after_line ?_ _ _
    rw [q.respell_tree h.toModest]
    refine (compilesAlike_generating h path q).bind fun r r' same => ?_
    rw [same]
    exact (compilesAlike_same r'.1).bind fun _ _ _ =>
      CompilesAlike.after_line (alike_pure rfl) _ _

theorem compileTree_absent (path : String) (absent : t.truthy = false) :
    CompilesAlike Eq (compileTree path t) (compileTree path (t.respell ρ)) := by
  unfold compileTree
  rw [Tree.truthy_respell, absent]
  exact CompilesAlike.after_outline (CompilesAlike.after_line (alike_pure rfl) _ _) t

theorem compileTree_parsed (h : ρ.Unnoticed) (path : String) {source : String}
    (parsed : (Pascal.parse 1 source).tree = .ok t) :
    CompilesAlike Eq (compileTree path t) (compileTree path (t.respell ρ)) := by
  cases present : t.truthy with
  | false => exact compileTree_absent path present
  | true =>
    have found : t ≠ .none := by
      rintro rfl
      cases present
    obtain ⟨p, rfl⟩ := exists_program_of_parsed parsed found
    exact compileTree_program h path p

theorem compileSource_recased (path : String) (recased : Recased s s') (manner : SameManner s s') :
    CompilesAlike Eq (compileSource path s) (compileSource path s') := by
  refine Alike.bind (compilesAlike_parsing recased manner) ?_
  rintro t t' ⟨parsed, parsed', same⟩
  have first := compileTree_parsed unnoticed_plain path parsed
  rw [same] at first
  exact CompilesAlike.trans first
    (CompilesAlike.symm (compileTree_parsed unnoticed_plain path parsed'))

/-- The compiler ends with the same exit status, or with the same fault, and leaves the same code
file for a file and for the file with the letters of its reserved words in the other case, as long
as each `div`, `mod`, `and` and `or` stays in small letters, in capitals or in neither, and each
`to` stays in small letters or not. -/
theorem recased_keywords_same_code {read read' : String → Except Fault String} {path s s' : String}
    (found : read path = .ok s) (found' : read' path = .ok s') (recased : Recased s s')
    (manner : SameManner s s') :
    (run (compileFile read [path])).1 = (run (compileFile read' [path])).1 ∧
      (run (compileFile read [path])).2.files = (run (compileFile read' [path])).2.files := by
  refine CompilesAlike.run ?_
  simp only [compileFile, found, found']
  refine CompilesAlike.after_line (CompilesAlike.after_line ?_ _ _) _ _
  refine Alike.bind (V := fun a a' => a = s ∧ a' = s') (alike_pure ⟨rfl, rfl⟩) ?_
  rintro _ _ ⟨rfl, rfl⟩
  exact compileSource_recased path recased manner

def halvesSmall : String :=
  "program p; var n: integer; begin if not (1 = 2) then n := 7 div 2 end."

def halvesMixed : String :=
  "PROGRAM p; Var n: Integer; BEGIN IF Not (1 = 2) THEN n := 7 div 2 End."

theorem halvesMixed_same_code :
    Recased halvesSmall halvesMixed ∧ SameManner halvesSmall halvesMixed ∧
      (run (compileFile (fun _ => .ok halvesSmall) ["halves.pas"])).1 =
        (run (compileFile (fun _ => .ok halvesMixed) ["halves.pas"])).1 ∧
      (run (compileFile (fun _ => .ok halvesSmall) ["halves.pas"])).2.files =
        (run (compileFile (fun _ => .ok halvesMixed) ["halves.pas"])).2.files := by
  have hypotheses : Recased halvesSmall halvesMixed ∧ SameManner halvesSmall halvesMixed := by
    decide +kernel
  obtain ⟨recased, manner⟩ := hypotheses
  exact ⟨recased, manner, recased_keywords_same_code rfl rfl recased manner⟩

def countsToThree (direction : String) : String :=
  "program p;\nvar i: integer;\nbegin\n  for i := 1 " ++ direction ++ " 3 do writeln(i)\nend.\n"

/-- The direction in capitals is taken for the other direction. Both programs are compiled with
success, and their code differs. -/
theorem capital_direction_other_code :
    Recased (countsToThree "to") (countsToThree "TO") ∧
      (run (compileFile (fun _ => .ok (countsToThree "to")) ["up.pas"])).1.toOption = some success ∧
      (run (compileFile (fun _ => .ok (countsToThree "TO")) ["up.pas"])).1.toOption = some success ∧
      (run (compileFile (fun _ => .ok (countsToThree "to")) ["up.pas"])).2.files ≠
        (run (compileFile (fun _ => .ok (countsToThree "TO")) ["up.pas"])).2.files :=
  by decide +kernel

end Compiler

end PascalStack
