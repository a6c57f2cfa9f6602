import PascalStack.LR.RuleText

/-!
# The rules as they are written

The text of the rules of the language, from which a table can be built anew. The lines of a text
are kept as they are, blanks included, because the signature of a table holds them.
-/

namespace PascalStack.Pascal

open LR

/-- The rules of one phrase, as lines of a text. -/
def ruleLines (name : String) (line : Nat) (lines : List String) : RuleText :=
  ⟨"p_" ++ name, line, "\n".intercalate lines⟩

/-- The rules of programs, declarations and types. -/
def declarationTexts : List RuleText := [
  ruleLines "program" 16 ["program : header SEMICOLON block DOT"],
  ruleLines "header" 20 ["header : PROGRAM ID"],
  ruleLines "block" 24 [
    "block : variable_declaration_part procedure_or_function statement_part ",
    "               | variable_declaration_part procedure_or_function variable_declaration_part "
      ++ "statement_part"],
  ruleLines "variable_declaration_part" 32 [
    "variable_declaration_part : VAR variable_declaration_list",
    "                                | "],
  ruleLines "variable_declaration_list" 41 [
    "variable_declaration_list : variable_declaration_list variable_declaration",
    "                                | variable_declaration"],
  ruleLines "variable_declaration" 51 ["variable_declaration : id_list COLON type SEMICOLON"],
  ruleLines "id_list" 55 [
    "id_list : ID",
    "               | ID LBRACKET expression RBRACKET ",
    "               | ID COMMA id_list",
    "               | ID LBRACKET expression RBRACKET COMMA id_list"],
  ruleLines "procedure_or_function" 75 [
    "procedure_or_function : proc_or_func_declaration SEMICOLON procedure_or_function",
    "                            | "],
  ruleLines "proc_or_func_declaration" 87 [
    "proc_or_func_declaration : procedure_declaration",
    "                               | function_declaration"],
  ruleLines "procedure_declaration" 92 [
    "procedure_declaration : procedure_heading SEMICOLON block"],
  ruleLines "procedure_heading" 96 [
    "procedure_heading : PROCEDURE ID",
    "                        | PROCEDURE ID LPAREN parameter_list RPAREN"],
  ruleLines "function_declaration" 104 [
    "function_declaration : function_heading SEMICOLON block"],
  ruleLines "function_heading" 108 [
    "function_heading : FUNCTION type",
    "                        | FUNCTION ID COLON type",
    "                        | FUNCTION ID LPAREN parameter_list RPAREN COLON type"],
  ruleLines "parameter_list" 119 [
    "parameter_list : parameter COMMA parameter_list",
    "                     | parameter"],
  ruleLines "parameter" 131 ["parameter : ID COLON type"],
  ruleLines "type" 135 [
    "type : REAL",
    "            | INTEGER",
    "            | BOOLEAN",
    "            | STRING",
    "            | array_type"],
  ruleLines "array_type" 146 ["array_type : ARRAY LBRACKET range RBRACKET OF type"],
  ruleLines "range" 150 ["range : expression RANGE expression"]]

/-- The rules of statements. -/
def statementTexts : List RuleText := [
  ruleLines "statement_part" 154 ["statement_part : BEGIN statement_sequence END"],
  ruleLines "statement_sequence" 158 [
    "statement_sequence : statement SEMICOLON statement_sequence",
    "                         | statement"],
  ruleLines "statement" 169 [
    "statement : assignment_statement",
    "                | statement_part",
    "                | if_statement",
    "                | while_statement",
    "                | repeat_statement",
    "                | for_statement",
    "                | procedure_or_function_call",
    "                | writeln_statement",
    "                | readln_statement",
    "                | break_statement",
    "                | continue_statement",
    "                | case_statement",
    "                | "],
  ruleLines "case_statement" 188 ["case_statement : CASE expression OF case_list END"],
  ruleLines "case_list" 193 [
    "case_list : case_option SEMICOLON case_list",
    "                 | case_option SEMICOLON"],
  ruleLines "case_option" 205 [
    "case_option : NUMBER COLON statement",
    "                  | BOOL COLON statement",
    "                  | PHRASE COLON statement",
    "                  | ID COLON statement"],
  ruleLines "writeln_statement" 221 [
    "writeln_statement : WRITELN LPAREN param_list RPAREN",
    "                         | WRITELN LPAREN RPAREN",
    "                         | WRITE LPAREN param_list RPAREN",
    "                         | WRITE LPAREN RPAREN"],
  ruleLines "readln_statement" 231 [
    "readln_statement : READLN LPAREN id_list RPAREN",
    "                       | READLN LPAREN RPAREN",
    "                       | READ LPAREN id_list RPAREN",
    "                       | READ LPAREN RPAREN"],
  ruleLines "break_statement" 242 ["break_statement : BREAK"],
  ruleLines "continue_statement" 247 ["continue_statement : CONTINUE"],
  ruleLines "procedure_or_function_call" 251 [
    "procedure_or_function_call : ID LPAREN param_list RPAREN",
    "                                 | ID LPAREN RPAREN",
    "                                 | ID"],
  ruleLines "param_list" 264 [
    "param_list : param_list COMMA param",
    "                  | param"],
  ruleLines "param" 275 ["param : expression"],
  ruleLines "if_statement" 279 [
    "if_statement : IF expression THEN statement ELSE statement",
    "                    | IF expression THEN statement"],
  ruleLines "while_statement" 287 ["while_statement : WHILE expression DO statement"],
  ruleLines "repeat_statement" 291 ["repeat_statement : REPEAT statement UNTIL expression"],
  ruleLines "for_statement" 295 [
    "for_statement : FOR assignment_statement TO expression DO statement",
    "                    | FOR assignment_statement DOWNTO expression DO statement"],
  ruleLines "assignment_statement" 301 [
    "assignment_statement : ID ASSIGN expression",
    "                            | ID ASSIGN procedure_or_function_call",
    "                            | ID LBRACKET expression RBRACKET ASSIGN expression"]]

/-- The rules of expressions. -/
def expressionTexts : List RuleText := [
  ruleLines "expression" 310 [
    "expression : expression and_or expression_m",
    "                  | expression_m"],
  ruleLines "expression_m" 318 [
    "expression_m : expression_s",
    "                   | expression_m sign expression_s"],
  ruleLines "expression_s" 326 [
    "expression_s : element",
    "                   | expression_s psign element"],
  ruleLines "and_or" 333 [
    "and_or : AND",
    "              | OR"],
  ruleLines "psign" 338 [
    "psign : TIMES",
    "             | DIVIDE"],
  ruleLines "sign" 343 [
    "sign : PLUS",
    "            | MINUS",
    "            | DIV",
    "            | MOD",
    "            | EQUALS",
    "            | DIFFERENT",
    "            | LESSTHAN",
    "            | LESSEQUAL",
    "            | GREATERTHAN",
    "            | GREATEREQUAL"],
  ruleLines "length_function" 356 ["length_function : LENGTH LPAREN expression RPAREN"],
  ruleLines "element" 360 [
    "element : ID",
    "               | NUMBER",
    "               | BOOL",
    "               | PHRASE",
    "               | LPAREN expression RPAREN",
    "               | NOT element",
    "               | length_function",
    "               | ID LBRACKET expression RBRACKET",
    "               | procedure_or_function_call"]]

/-- All rules. Their order gives them their numbers. -/
def ruleTexts : List RuleText := declarationTexts ++ statementTexts ++ expressionTexts

end PascalStack.Pascal
