import PascalStack.Pascal.Grammar

/-!
# The parse table of the language

For each state its actions and the states that follow a phrase.
-/

namespace PascalStack.Pascal

open LR

/-- The actions of a state. -/
abbrev Row := List (Terminal TokenKind × Action)

/-- Shifts of tokens, each to a state. -/
def shifts (entries : List (TokenKind × Nat)) : Row :=
  entries.map fun (kind, state) => (.token kind, .shift state)

/-- Reductions by one rule, on any of the tokens. -/
def reductions (rule : Nat) (kinds : List TokenKind) : Row :=
  kinds.map fun kind => (.token kind, .reduce rule)

/-- A reduction at the end of the text. -/
def atFinish (rule : Nat) : Row := [(.finish, .reduce rule)]

def statementShifts : Row :=
  shifts [(.kwBegin, 24), (.kwIf, 57), (.kwFor, 60), (.kwWhile, 58), (.kwRepeat, 59),
    (.kwCase, 67), (.kwWriteln, 61), (.kwWrite, 62), (.kwReadln, 63), (.kwRead, 64),
    (.kwBreak, 65), (.kwContinue, 66), (.ident, 56)]

def operandShifts (name : Nat) : Row :=
  shifts [(.kwNot, 85), (.bool, 82), (.kwLength, 88), (.leftParen, 84), (.phrase, 83),
    (.ident, name), (.number, 81)]

def typeShifts : Row :=
  shifts [(.kwReal, 31), (.kwInteger, 32), (.kwBoolean, 33), (.kwString, 34), (.kwArray, 36)]

def constantShifts : Row :=
  shifts [(.bool, 186), (.phrase, 187), (.ident, 188), (.number, 185)]

def logicShifts : Row :=
  shifts [(.kwAnd, 116), (.kwOr, 117)]

def sumShifts : Row :=
  shifts [(.kwDiv, 121), (.kwMod, 122), (.plus, 119), (.minus, 120), (.lessEqual, 126),
    (.greaterThan, 127), (.greaterEqual, 128), (.different, 124), (.lessThan, 125),
    (.equals, 123)]

def productShifts : Row :=
  shifts [(.times, 130), (.divide, 131)]

def operandStarts : List TokenKind :=
  [.kwNot, .bool, .kwLength, .leftParen, .phrase, .ident, .number]

def afterStatement : List TokenKind :=
  [.kwEnd, .kwElse, .kwUntil, .semicolon]

def afterAssigned : List TokenKind :=
  [.kwEnd, .kwElse, .kwTo, .kwDownto, .kwUntil, .semicolon]

def afterType : List TokenKind :=
  [.semicolon, .rightParen, .comma]

def signs : List TokenKind :=
  [.kwAnd, .kwOr, .kwDiv, .kwMod, .plus, .minus, .times, .divide, .lessEqual, .greaterThan,
    .greaterEqual, .different, .lessThan, .equals]

def afterSum : List TokenKind :=
  [.kwEnd, .kwThen, .kwElse, .kwTo, .kwDo, .kwDownto, .kwUntil, .kwAnd, .kwOr, .kwOf, .semicolon,
    .rightParen, .comma, .rightBracket, .range]

def afterProduct : List TokenKind :=
  afterSum ++ [.kwDiv, .kwMod, .plus, .minus, .lessEqual, .greaterThan, .greaterEqual, .different,
    .lessThan, .equals]

def afterElement : List TokenKind :=
  afterProduct ++ [.times, .divide]

def statementGotos (statement : Nat) : List (Phrase × Nat) :=
  (.statement, statement) :: [(.statementPart, 45), (.caseStatement, 55), (.writeln, 51),
    (.readln, 52), (.breakStatement, 53), (.continueStatement, 54), (.call, 50),
    (.ifStatement, 46), (.whileStatement, 47), (.repeatStatement, 48), (.forStatement, 49),
    (.assignment, 44)]

def expressionGotos (expression call : Nat) : List (Phrase × Nat) :=
  [(.call, call), (.expression, expression), (.sum, 78), (.product, 79), (.lengthCall, 86),
    (.element, 80)]

def argumentGotos (arguments : Nat) : List (Phrase × Nat) :=
  (.arguments, arguments) :: (.argument, 142) :: expressionGotos 143 87

def routineGotos (routines : Nat) : List (Phrase × Nat) :=
  [(.routines, routines), (.routine, 11), (.procedure, 12), (.procedureHeading, 14),
    (.function, 13), (.functionHeading, 15)]

def typeGotos (type : Nat) : List (Phrase × Nat) := [(.type, type), (.arrayType, 35)]

/-- The actions of all states. -/
def actionRows : Array Row := #[
  shifts [(.kwProgram, 3)], [(.finish, .accept)], shifts [(.semicolon, 4)], shifts [(.ident, 5)],
  shifts [(.kwVar, 8)] ++ reductions 6 [.kwBegin, .kwFunction, .kwProcedure],
  reductions 2 [.semicolon], shifts [(.dot, 9)],
  shifts [(.kwFunction, 17), (.kwProcedure, 16)] ++ reductions 15 [.kwVar, .kwBegin],
  shifts [(.ident, 21)], atFinish 1, shifts [(.kwVar, 8), (.kwBegin, 24)],
  shifts [(.semicolon, 25)], reductions 16 [.semicolon], reductions 17 [.semicolon],
  shifts [(.semicolon, 26)], shifts [(.semicolon, 27)], shifts [(.ident, 28)],
  shifts [(.ident, 30)] ++ typeShifts,
  shifts [(.ident, 21)] ++ reductions 5 [.kwVar, .kwBegin, .kwFunction, .kwProcedure],
  reductions 8 [.kwVar, .kwBegin, .kwFunction, .kwProcedure, .ident], shifts [(.colon, 38)],
  shifts [(.comma, 40), (.leftBracket, 39)] ++ reductions 10 [.rightParen, .colon],
  shifts [(.kwBegin, 24)], reductions 3 [.semicolon, .dot],
  statementShifts ++ reductions 50 [.kwEnd, .semicolon],
  shifts [(.kwFunction, 17), (.kwProcedure, 16)] ++ reductions 15 [.kwVar, .kwBegin],
  shifts [(.kwVar, 8)] ++ reductions 6 [.kwBegin, .kwFunction, .kwProcedure],
  shifts [(.kwVar, 8)] ++ reductions 6 [.kwBegin, .kwFunction, .kwProcedure],
  shifts [(.leftParen, 71)] ++ reductions 19 [.semicolon], reductions 22 [.semicolon],
  shifts [(.leftParen, 73), (.colon, 72)], reductions 28 afterType, reductions 29 afterType,
  reductions 30 afterType, reductions 31 afterType, reductions 32 afterType,
  shifts [(.leftBracket, 74)], reductions 7 [.kwVar, .kwBegin, .kwFunction, .kwProcedure, .ident],
  typeShifts, operandShifts 76, shifts [(.ident, 21)], reductions 4 [.semicolon, .dot],
  shifts [(.kwEnd, 90)], shifts [(.semicolon, 91)] ++ reductions 37 [.kwEnd],
  reductions 38 afterStatement, reductions 39 afterStatement, reductions 40 afterStatement,
  reductions 41 afterStatement, reductions 42 afterStatement, reductions 43 afterStatement,
  reductions 44 afterStatement, reductions 45 afterStatement, reductions 46 afterStatement,
  reductions 47 afterStatement, reductions 48 afterStatement, reductions 49 afterStatement,
  shifts [(.leftParen, 94), (.assign, 92), (.leftBracket, 93)] ++ reductions 70 afterStatement,
  operandShifts 76, operandShifts 76, statementShifts ++ reductions 50 [.kwUntil],
  shifts [(.ident, 99)], shifts [(.leftParen, 100)], shifts [(.leftParen, 101)],
  shifts [(.leftParen, 102)], shifts [(.leftParen, 103)], reductions 66 afterStatement,
  reductions 67 afterStatement, operandShifts 76, reductions 14 [.kwVar, .kwBegin],
  reductions 18 [.semicolon], reductions 21 [.semicolon], shifts [(.ident, 105)], typeShifts,
  shifts [(.ident, 105)], operandShifts 76, shifts [(.semicolon, 112)],
  shifts [(.leftParen, 94), (.leftBracket, 113)] ++ reductions 70 afterElement,
  shifts [(.rightBracket, 114)] ++ logicShifts, sumShifts ++ reductions 84 afterSum,
  productShifts ++ reductions 85 afterProduct, reductions 87 afterElement,
  reductions 105 afterElement, reductions 106 afterElement, reductions 107 afterElement,
  operandShifts 76, operandShifts 76, reductions 110 afterElement, reductions 112 afterElement,
  shifts [(.leftParen, 134)], reductions 12 [.rightParen, .colon],
  reductions 35 [.kwEnd, .kwElse, .kwUntil, .semicolon, .dot],
  statementShifts ++ reductions 50 [.kwEnd, .semicolon], operandShifts 136, operandShifts 76,
  shifts [(.rightParen, 141)] ++ operandShifts 76, shifts [(.kwThen, 144)] ++ logicShifts,
  shifts [(.kwDo, 145)] ++ logicShifts, shifts [(.kwUntil, 146)],
  shifts [(.kwTo, 147), (.kwDownto, 148)], shifts [(.assign, 92), (.leftBracket, 93)],
  shifts [(.rightParen, 150)] ++ operandShifts 76, shifts [(.rightParen, 152)] ++ operandShifts 76,
  shifts [(.rightParen, 154), (.ident, 21)], shifts [(.rightParen, 156), (.ident, 21)],
  shifts [(.kwOf, 157)] ++ logicShifts, shifts [(.colon, 158)], shifts [(.rightParen, 159)],
  shifts [(.comma, 160)] ++ reductions 26 [.rightParen], reductions 23 [.semicolon],
  shifts [(.rightParen, 161)], shifts [(.rightBracket, 162)], shifts [(.range, 163)] ++ logicShifts,
  reductions 9 [.kwVar, .kwBegin, .kwFunction, .kwProcedure, .ident], operandShifts 76,
  shifts [(.comma, 165)] ++ reductions 11 [.rightParen, .colon], operandShifts 76,
  reductions 89 operandStarts, reductions 90 operandStarts, operandShifts 76,
  reductions 93 operandStarts, reductions 94 operandStarts, reductions 95 operandStarts,
  reductions 96 operandStarts, reductions 97 operandStarts, reductions 98 operandStarts,
  reductions 99 operandStarts, reductions 100 operandStarts, reductions 101 operandStarts,
  reductions 102 operandStarts, operandShifts 76, reductions 91 operandStarts,
  reductions 92 operandStarts, shifts [(.rightParen, 169)] ++ logicShifts,
  reductions 109 afterElement, operandShifts 76, reductions 36 [.kwEnd],
  shifts [(.leftParen, 94), (.leftBracket, 113)] ++ reductions 70 (afterAssigned ++ signs),
  logicShifts ++ reductions 80 afterAssigned, reductions 81 afterAssigned ++ reductions 112 signs,
  shifts [(.rightBracket, 171)] ++ logicShifts, shifts [(.rightParen, 172), (.comma, 173)],
  reductions 69 afterElement, reductions 72 [.rightParen, .comma],
  logicShifts ++ reductions 73 [.rightParen, .comma],
  statementShifts ++ reductions 50 afterStatement, statementShifts ++ reductions 50 afterStatement,
  operandShifts 76, operandShifts 76, operandShifts 76, shifts [(.rightParen, 179), (.comma, 173)],
  reductions 59 afterStatement, shifts [(.rightParen, 180), (.comma, 173)],
  reductions 61 afterStatement, shifts [(.rightParen, 181)], reductions 63 afterStatement,
  shifts [(.rightParen, 182)], reductions 65 afterStatement, constantShifts, typeShifts,
  reductions 20 [.semicolon], shifts [(.ident, 105)], shifts [(.colon, 191)], shifts [(.kwOf, 192)],
  operandShifts 76, shifts [(.rightBracket, 194)] ++ logicShifts, shifts [(.ident, 21)],
  sumShifts ++ reductions 83 afterSum, productShifts ++ reductions 86 afterProduct,
  reductions 88 afterElement, reductions 108 afterElement,
  shifts [(.rightParen, 196)] ++ logicShifts, shifts [(.assign, 197)], reductions 68 afterElement,
  operandShifts 76, shifts [(.kwElse, 199)] ++ reductions 75 [.kwEnd, .kwUntil, .semicolon],
  reductions 76 afterStatement, logicShifts ++ reductions 77 afterStatement,
  shifts [(.kwDo, 200)] ++ logicShifts, shifts [(.kwDo, 201)] ++ logicShifts,
  reductions 58 afterStatement, reductions 60 afterStatement, reductions 62 afterStatement,
  reductions 64 afterStatement, shifts [(.kwEnd, 202)], shifts [(.semicolon, 203)],
  shifts [(.colon, 204)], shifts [(.colon, 205)], shifts [(.colon, 206)], shifts [(.colon, 207)],
  reductions 27 [.rightParen, .comma], reductions 25 [.rightParen], typeShifts, typeShifts,
  logicShifts ++ reductions 34 [.rightBracket], reductions 111 afterElement,
  reductions 13 [.rightParen, .colon], reductions 103 afterElement, operandShifts 76,
  reductions 71 [.rightParen, .comma], statementShifts ++ reductions 50 afterStatement,
  statementShifts ++ reductions 50 afterStatement, statementShifts ++ reductions 50 afterStatement,
  reductions 51 afterStatement, constantShifts ++ reductions 53 [.kwEnd],
  statementShifts ++ reductions 50 [.semicolon], statementShifts ++ reductions 50 [.semicolon],
  statementShifts ++ reductions 50 [.semicolon], statementShifts ++ reductions 50 [.semicolon],
  reductions 24 [.semicolon], reductions 33 afterType, logicShifts ++ reductions 82 afterAssigned,
  reductions 74 afterStatement, reductions 78 afterStatement, reductions 79 afterStatement,
  reductions 52 [.kwEnd], reductions 54 [.semicolon], reductions 55 [.semicolon],
  reductions 56 [.semicolon], reductions 57 [.semicolon]]

/-- The states that follow phrases, for all states. -/
def gotoRows : Array (List (Phrase × Nat)) := #[
  [(.program, 1), (.header, 2)], [], [], [], [(.block, 6), (.varPart, 7)], [], [], routineGotos 10,
  [(.varList, 18), (.varDeclaration, 19), (.idList, 20)], [],
  [(.varPart, 22), (.statementPart, 23)], [], [], [], [], [], [], typeGotos 29,
  [(.varDeclaration, 37), (.idList, 20)], [], [], [], [(.statementPart, 41)], [],
  [(.statements, 42)] ++ statementGotos 43, routineGotos 68, [(.block, 69), (.varPart, 7)],
  [(.block, 70), (.varPart, 7)], [], [], [], [], [], [], [], [], [], [], typeGotos 75,
  expressionGotos 77 87, [(.idList, 89)], [], [], [], [], [], [], [], [], [], [], [], [], [], [],
  [], [], expressionGotos 95 87, expressionGotos 96 87, statementGotos 97, [(.assignment, 98)], [],
  [], [], [], [], [], expressionGotos 104 87, [], [], [], [(.parameters, 106), (.parameter, 107)],
  typeGotos 108, [(.parameters, 109), (.parameter, 107)], [(.range, 110)] ++ expressionGotos 111 87,
  [], [], [(.logicSign, 115)], [(.sumSign, 118)], [(.productSign, 129)], [], [], [], [],
  expressionGotos 132 87, [(.call, 87), (.lengthCall, 86), (.element, 133)], [], [], [], [], [],
  [(.statements, 135)] ++ statementGotos 43, expressionGotos 137 138, expressionGotos 139 87,
  argumentGotos 140, [(.logicSign, 115)], [(.logicSign, 115)], [], [], [], argumentGotos 149,
  argumentGotos 151, [(.idList, 153)], [(.idList, 155)], [(.logicSign, 115)], [], [], [], [], [],
  [], [(.logicSign, 115)], [], expressionGotos 164 87, [],
  [(.call, 87), (.sum, 166), (.product, 79), (.lengthCall, 86), (.element, 80)], [], [],
  [(.call, 87), (.product, 167), (.lengthCall, 86), (.element, 80)], [], [], [], [], [], [], [], [],
  [], [], [(.call, 87), (.lengthCall, 86), (.element, 168)], [], [], [(.logicSign, 115)], [],
  expressionGotos 170 87, [], [], [(.logicSign, 115)], [], [(.logicSign, 115)], [], [], [],
  [(.logicSign, 115)], statementGotos 174, statementGotos 175, expressionGotos 176 87,
  expressionGotos 177 87, expressionGotos 178 87, [], [], [], [], [], [], [], [],
  [(.caseOptions, 183), (.caseOption, 184)], typeGotos 189, [],
  [(.parameters, 190), (.parameter, 107)], [], [], expressionGotos 193 87, [(.logicSign, 115)],
  [(.idList, 195)], [(.sumSign, 118)], [(.productSign, 129)], [], [], [(.logicSign, 115)], [], [],
  [(.argument, 198)] ++ expressionGotos 143 87, [], [], [(.logicSign, 115)], [(.logicSign, 115)],
  [(.logicSign, 115)], [], [], [], [], [], [], [], [], [], [], [], [], typeGotos 208, typeGotos 209,
  [(.logicSign, 115)], [], [], [], expressionGotos 210 87, [], statementGotos 211,
  statementGotos 212, statementGotos 213, [], [(.caseOptions, 214), (.caseOption, 184)],
  statementGotos 215, statementGotos 216, statementGotos 217, statementGotos 218, [], [],
  [(.logicSign, 115)], [], [], [], [], [], [], [], []]

-- The rows are large: what a state does is never computed when terms are compared.

/-- What a state does on a terminal. Nothing is an error. -/
@[irreducible] def action (state : Nat) (terminal : Terminal TokenKind) : Option Action :=
  (actionRows.getD state []).lookup terminal

/-- The state that follows a phrase. -/
@[irreducible] def goto (state : Nat) (phrase : Phrase) : Option Nat := (gotoRows.getD state []).lookup phrase

/-- The rule of a state that can only reduce by it, on whatever token. -/
@[irreducible] def settled (state : Nat) : Option Nat :=
  match actionRows.getD state [] with
  | [(_, .reduce rule)] => some rule
  | _ => none

end PascalStack.Pascal
