import Mathlib.Data.List.Forall2
import Mathlib.Data.List.TakeWhile
import PascalStack.Proofs.ControlFlow.Lowering
import Std.Data.String.ToInt

/-!
# The text of code and the operations it assembles to

The text of an instruction decodes to one operation of the machine, and the text of code assembles to
the operations of its instructions. Labels have different names if they differ.
-/

namespace PascalStack.ControlFlow

open Code List
open StackMachine

def Assembles (i : Instruction) (op : Op) : Prop :=
  ∃ text, i.text = .ok text ∧ decode text.toList = some op ∧ ∀ c ∈ text.toList, c ≠ '\n'

def Solid (s : String) : Prop := ∀ c ∈ s.toList, c ≠ ' ' ∧ c ≠ '\n'

variable {i : Instruction} {op : Op}

theorem assembles_operand (word operand : String) (shown : i.text = .ok (word ++ " " ++ operand))
    (solid : Solid word) (plain : ∀ c ∈ operand.toList, c ≠ '\n')
    (means : operandOp word operand.toList = some op) : Assembles i op := by
  have shape : (word ++ " " ++ operand).toList = word.toList ++ ' ' :: operand.toList := by simp
  have pass : ∀ c ∈ word.toList, decide (c ≠ ' ') = true := by
    intro c member
    simpa using (solid c member).1
  have drop : (word.toList ++ ' ' :: operand.toList).dropWhile (· ≠ ' ') = ' ' :: operand.toList := by
    rw [dropWhile_append_of_pos pass]
    simp
  have take : (word.toList ++ ' ' :: operand.toList).takeWhile (· ≠ ' ') = word.toList := by
    rw [takeWhile_append_of_pos pass]
    simp
  refine ⟨_, shown, ?_, ?_⟩
  · rw [shape, decode, drop]
    simp only [take, String.ofList_toList, means]
  · intro c member
    rw [shape, mem_append, mem_cons] at member
    rcases member with member | rfl | member
    · exact (solid c member).2
    · simp
    · exact plain c member

theorem assembles_word (word : String) (shown : i.text = .ok word) (solid : Solid word)
    (means : wordOp word.toList = some op) : Assembles i op := by
  have drop : word.toList.dropWhile (· ≠ ' ') = [] := by
    rw [dropWhile_eq_nil_iff]
    intro c member
    simpa using (solid c member).1
  refine ⟨word, shown, ?_, fun c member => (solid c member).2⟩
  rw [decode, drop]
  exact means

theorem toString_nat_digits (n : Nat) : ∀ c ∈ (toString n).toList, c.isDigit = true := by
  intro c member
  rw [Nat.toString_eq_repr, Nat.toList_repr] at member
  exact Nat.isDigit_of_mem_toDigits (by omega) (by omega) member

theorem toString_nat_solid (n : Nat) : Solid (toString n) := by
  intro c member
  have digit := toString_nat_digits n c member
  refine ⟨?_, ?_⟩ <;> rintro rfl <;> simp at digit

theorem toString_int_solid (n : Int) : Solid (toString n) := by
  cases n with
  | ofNat n => exact toString_nat_solid n
  | negSucc n =>
    intro c member
    have shape : toString (Int.negSucc n) = "-" ++ toString (n + 1) := rfl
    rw [shape, String.toList_append, mem_append] at member
    rcases member with member | member
    · have minus : c = '-' := by simpa using member
      subst minus
      simp
    · exact toString_nat_solid _ c member

theorem assembles_load (n : Nat) : Assembles (.load (.program n)) (.load n) := by
  refine assembles_operand "pushg" (toString n) rfl (by simp [Solid])
    (fun c member => (toString_nat_solid n c member).2) ?_
  simp only [operandOp, String.ofList_toList, Nat.toString_eq_repr, Nat.toNat?_repr,
    Option.map_some]

theorem assembles_store (n : Nat) : Assembles (.store (.program n)) (.store n) := by
  refine assembles_operand "storeg" (toString n) rfl (by simp [Solid])
    (fun c member => (toString_nat_solid n c member).2) ?_
  simp only [operandOp, String.ofList_toList, Nat.toString_eq_repr, Nat.toNat?_repr,
    Option.map_some]

theorem assembles_push {n : Int} (writable : Writable n) :
    Assembles (.push (.int n)) (.pushNumber n) := by
  refine assembles_operand "pushi" (toString n) (text_push_writable writable) (by simp [Solid])
    (fun c member => (toString_int_solid n c member).2) ?_
  simp [operandOp]

theorem assembles_operate (op : Operation) : Assembles (.operate op) (.operate op) := by
  refine assembles_word op.text rfl ?_ ?_
  · cases op <;> simp [Operation.text, Solid]
  · cases op <;> simp [Operation.text, wordOp, plainOps, lookup_cons]

theorem quotedRest_plain {cs : List Char} (plain : ∀ c ∈ cs, c ≠ '"' ∧ c ≠ '\\') :
    quotedRest (cs ++ ['"']) = some cs := by
  induction cs with
  | nil => rfl
  | cons c rest ih =>
    have here := plain c (by simp)
    have later := ih fun c member => plain c (by simp [member])
    rw [cons_append, quotedRest, later]
    · rfl
    all_goals simp_all

theorem decode_pushString (s : String) :
    decode ("pushs \"" ++ s ++ "\"").toList =
      (quotedRest (s.toList ++ ['"'])).map fun cs => .pushText (String.ofList cs) := by
  have shape : ("pushs \"" ++ s ++ "\"").toList =
      'p' :: 'u' :: 's' :: 'h' :: 's' :: ' ' :: '"' :: (s.toList ++ ['"']) := by simp
  rw [shape]
  change (((quotedRest (s.toList ++ ['"'])).map String.ofList).map Op.pushText) = _
  rw [Option.map_map]
  rfl

theorem assembles_pushString_iff {s text : String} (oneLine : '\n' ∉ s.toList) :
    Assembles (.pushString s) (.pushText text) ↔
      quotedRest (s.toList ++ ['"']) = some text.toList := by
  constructor
  · rintro ⟨_, ⟨⟩, decoded, -⟩
    rw [decode_pushString] at decoded
    obtain ⟨cs, found, same⟩ := Option.map_eq_some_iff.mp decoded
    rw [found, ← Op.pushText.inj same, String.toList_ofList]
  · intro found
    refine ⟨_, rfl, ?_, ?_⟩
    · rw [decode_pushString, found, Option.map_some, String.ofList_toList]
    · rintro c member rfl
      simp [oneLine] at member

theorem assembles_pushString {s : String} (plain : ∀ c ∈ s.toList, c ≠ '"' ∧ c ≠ '\\' ∧ c ≠ '\n') :
    Assembles (.pushString s) (.pushText s) :=
  (assembles_pushString_iff fun line => (plain _ line).2.2 rfl).mpr <|
    quotedRest_plain fun c member => ⟨(plain c member).1, (plain c member).2.1⟩

theorem assembles_writeString : Assembles .writeString .writeText :=
  assembles_word "writes" rfl (by simp [Solid]) (by simp [wordOp, plainOps, lookup_cons])

theorem assembles_writeInteger : Assembles .writeInteger .writeNumber :=
  assembles_word "writei" rfl (by simp [Solid]) (by simp [wordOp, plainOps, lookup_cons])

theorem assembles_writeLine : Assembles .writeLine .writeLine :=
  assembles_word "writeln" rfl (by simp [Solid]) (by simp [wordOp, plainOps, lookup_cons])

def labelWord : Label → String
  | .forStart _ => "FOR"
  | .forEnd _ => "OUT"
  | .whileStart _ => "WHILE"
  | .whileEnd _ => "ENDWHILE"
  | .elseBranch _ => "ELSE"
  | .ifEnd _ => "ENDIF"
  | .routine _ => ""

def labelNumber : Label → Nat
  | .forStart n | .forEnd n | .whileStart n | .whileEnd n | .elseBranch n | .ifEnd n => n
  | .routine _ => 0

def labelName (lb : Label) : String := labelWord lb ++ toString (labelNumber lb)

def Control : Label → Prop
  | .routine _ => False
  | _ => True

theorem text_label {lb : Label} (control : Control lb) : lb.text = .ok (labelName lb) := by
  cases lb <;> first | exact control.elim | rfl

theorem labelWord_letters (lb : Label) :
    ∀ c ∈ (labelWord lb).toList, c.isDigit = false ∧ c ≠ ' ' ∧ c ≠ '\n' := by
  cases lb <;> simp [labelWord]

theorem labelName_solid (lb : Label) : Solid (labelName lb) := by
  intro c member
  simp only [labelName, String.toList_append, mem_append] at member
  rcases member with member | member
  · exact (labelWord_letters lb c member).2
  · exact toString_nat_solid _ c member

theorem takeWhile_labelName (lb : Label) :
    (labelName lb).toList.takeWhile (fun c => !c.isDigit) = (labelWord lb).toList := by
  have letters : ∀ c ∈ (labelWord lb).toList, (!c.isDigit) = true := by
    intro c member
    rw [(labelWord_letters lb c member).1]
    rfl
  have digits : (toString (labelNumber lb)).toList.takeWhile (fun c => !c.isDigit) = [] := by
    cases shape : (toString (labelNumber lb)).toList with
    | nil => rfl
    | cons c rest =>
      have digit := toString_nat_digits (labelNumber lb) c (by rw [shape]; exact mem_cons_self)
      simp [digit]
  rw [labelName, String.toList_append, takeWhile_append_of_pos letters, digits,
    append_nil]

theorem labelName_inj {lb lb' : Label} (control : Control lb) (control' : Control lb')
    (same : labelName lb = labelName lb') : lb = lb' := by
  have words : labelWord lb = labelWord lb' := by
    rw [← String.toList_inj, ← takeWhile_labelName lb, ← takeWhile_labelName lb', same]
  have numbers : labelNumber lb = labelNumber lb' := by
    have rest : toString (labelNumber lb) = toString (labelNumber lb') := by
      have lists := congrArg String.toList same
      simp only [labelName, String.toList_append, words, append_cancel_left_eq] at lists
      exact String.toList_inj.mp lists
    exact Nat.repr_injective rest
  cases lb <;> cases lb' <;> simp_all [labelWord, labelNumber, Control]

theorem assembles_label {lb : Label} (control : Control lb) :
    Assembles (.label lb) (.label (labelName lb)) := by
  have noWord : plainOps.lookup (labelName lb ++ ":") = none := by
    have last : ∀ entry ∈ plainOps, entry.1.toList.getLast? ≠ some ':' := by
      simp [plainOps]
    rw [lookup_eq_none_iff]
    intro entry member
    have differ := last entry member
    rw [bne_iff_ne]
    intro equal
    rw [← equal] at differ
    simp at differ
  refine assembles_word (labelName lb ++ ":") ?_ ?_ ?_
  · rw [Instruction.text, text_label control]
    rfl
  · intro c member
    simp only [String.toList_append, mem_append] at member
    rcases member with member | member
    · exact labelName_solid lb c member
    · have colon : c = ':' := by simpa using member
      subst colon
      simp
  · simp only [wordOp, String.ofList_toList, noWord]
    simp

theorem assembles_jump {lb : Label} (control : Control lb) :
    Assembles (.jump lb) (.jump (labelName lb)) := by
  refine assembles_operand "jump" (labelName lb) ?_ (by simp [Solid])
    (fun c member => (labelName_solid lb c member).2) (by simp [operandOp])
  rw [Instruction.text, text_label control]
  rfl

theorem assembles_jumpZero {lb : Label} (control : Control lb) :
    Assembles (.jumpZero lb) (.jumpZero (labelName lb)) := by
  refine assembles_operand "jz" (labelName lb) ?_ (by simp [Solid])
    (fun c member => (labelName_solid lb c member).2) (by simp [operandOp])
  rw [Instruction.text, text_label control]
  rfl

/-- The operation that an instruction of a program of control flow stands for. -/
inductive Means : Instruction → Op → Prop where
  | load (n : Nat) : Means (.load (.program n)) (.load n)
  | store (n : Nat) : Means (.store (.program n)) (.store n)
  | push {n : Int} (writable : Writable n) : Means (.push (.int n)) (.pushNumber n)
  | operate (op : Operation) : Means (.operate op) (.operate op)
  | pushString {s : String} (plain : ∀ c ∈ s.toList, c ≠ '"' ∧ c ≠ '\\' ∧ c ≠ '\n') :
      Means (.pushString s) (.pushText s)
  | writeString : Means .writeString .writeText
  | writeInteger : Means .writeInteger .writeNumber
  | writeLine : Means .writeLine .writeLine
  | label {lb : Label} (control : Control lb) : Means (.label lb) (.label (labelName lb))
  | jump {lb : Label} (control : Control lb) : Means (.jump lb) (.jump (labelName lb))
  | jumpZero {lb : Label} (control : Control lb) : Means (.jumpZero lb) (.jumpZero (labelName lb))

theorem Means.assembles (means : Means i op) : Assembles i op := by
  cases means with
  | load n => exact assembles_load n
  | store n => exact assembles_store n
  | push writable => exact assembles_push writable
  | operate op => exact assembles_operate op
  | pushString plain => exact assembles_pushString plain
  | writeString => exact assembles_writeString
  | writeInteger => exact assembles_writeInteger
  | writeLine => exact assembles_writeLine
  | label control => exact assembles_label control
  | jump control => exact assembles_jump control
  | jumpZero control => exact assembles_jumpZero control

theorem linesFrom_line (cs : List Char) (plain : ∀ c ∈ cs, c ≠ '\n') (acc rest : List Char) :
    linesFrom acc (cs ++ '\n' :: rest) =
      (linesFrom [] rest).map ((acc.reverse ++ cs) :: ·) := by
  induction cs generalizing acc with
  | nil => simp [linesFrom]
  | cons c tail ih =>
    have here := plain c (by simp)
    rw [cons_append, linesFrom, ih fun c member => plain c (by simp [member])]
    · simp
    · exact here

theorem assemble_render {code : List Instruction} {ops : List Op}
    (each : Forall₂ Means code ops) :
    ∃ text, render code = .ok text ∧ assemble text = some ops := by
  have lines : ∃ text lines, render code = .ok text ∧ linesFrom [] text.toList = some lines ∧
      lines.mapM decode = some ops := by
    induction each with
    | nil => exact ⟨"", [], rfl, rfl, rfl⟩
    | @cons i op code ops first _ ih =>
      obtain ⟨text, lines, rendered, split, decoded⟩ := ih
      obtain ⟨line, shown, decodes, plain⟩ := first.assembles
      refine ⟨line ++ "\n" ++ text, line.toList :: lines, ?_, ?_, ?_⟩
      · simp only [render, shown, rendered]
        rfl
      · have shape : (line ++ "\n" ++ text).toList = line.toList ++ '\n' :: text.toList := by
          simp
        rw [shape, linesFrom_line _ plain, split]
        simp
      · simp only [mapM_cons, decodes, decoded]
        rfl
  obtain ⟨text, lines, rendered, split, decoded⟩ := lines
  refine ⟨text, rendered, ?_⟩
  rw [assemble, split]
  exact decoded

end PascalStack.ControlFlow
