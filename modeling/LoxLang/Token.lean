import LoxLang.Value

/-!
# Tokens

A token is a piece of a source text that the grammar sees as one symbol. It keeps its text, the
value it stands for and the position where it starts.
-/

namespace LoxLang

/-- The kinds of tokens. -/
inductive TokenKind
  | leftParen
  | rightParen
  | leftBrace
  | rightBrace
  | comma
  | dot
  | minus
  | plus
  | semicolon
  | slash
  | star
  | question
  | colon
  | bang
  | bangEqual
  | equal
  | equalEqual
  | greater
  | greaterEqual
  | less
  | lessEqual
  | identifier
  | string
  | number
  | andWord
  | breakWord
  | classWord
  | continueWord
  | elseWord
  | falseWord
  | forWord
  | funWord
  | ifWord
  | nilWord
  | orWord
  | printWord
  | returnWord
  | superWord
  | thisWord
  | trueWord
  | varWord
  | whileWord
  | endOfText
  deriving DecidableEq

namespace TokenKind

/-- The name under which traces show a kind. -/
def name : TokenKind → String
  | .leftParen => "LEFT_PAREN"
  | .rightParen => "RIGHT_PAREN"
  | .leftBrace => "LEFT_BRACE"
  | .rightBrace => "RIGHT_BRACE"
  | .comma => "COMMA"
  | .dot => "DOT"
  | .minus => "MINUS"
  | .plus => "PLUS"
  | .semicolon => "SEMICOLON"
  | .slash => "SLASH"
  | .star => "STAR"
  | .question => "QUESTION"
  | .colon => "COLON"
  | .bang => "BANG"
  | .bangEqual => "BANG_EQUAL"
  | .equal => "EQUAL"
  | .equalEqual => "EQUAL_EQUAL"
  | .greater => "GREATER"
  | .greaterEqual => "GREATER_EQUAL"
  | .less => "LESS"
  | .lessEqual => "LESS_EQUAL"
  | .identifier => "IDENTIFIER"
  | .string => "STRING"
  | .number => "NUMBER"
  | .andWord => "AND"
  | .breakWord => "BREAK"
  | .classWord => "CLASS"
  | .continueWord => "CONTINUE"
  | .elseWord => "ELSE"
  | .falseWord => "FALSE"
  | .forWord => "FOR"
  | .funWord => "FUN"
  | .ifWord => "IF"
  | .nilWord => "NIL"
  | .orWord => "OR"
  | .printWord => "PRINT"
  | .returnWord => "RETURN"
  | .superWord => "SUPER"
  | .thisWord => "THIS"
  | .trueWord => "TRUE"
  | .varWord => "VAR"
  | .whileWord => "WHILE"
  | .endOfText => "EOF"

/-- All kinds of tokens. -/
def all : List TokenKind :=
  [.leftParen, .rightParen, .leftBrace, .rightBrace, .comma, .dot, .minus, .plus, .semicolon,
   .slash, .star, .question, .colon, .bang, .bangEqual, .equal, .equalEqual, .greater,
   .greaterEqual, .less, .lessEqual, .identifier, .string, .number, .andWord, .breakWord,
   .classWord, .continueWord, .elseWord, .falseWord, .forWord, .funWord, .ifWord, .nilWord,
   .orWord, .printWord, .returnWord, .superWord, .thisWord, .trueWord, .varWord, .whileWord,
   .endOfText]

/-- The kind with a given name. -/
def ofName? (name : String) : Option TokenKind :=
  all.find? (·.name == name)

/-- The words that are no identifiers. -/
def keywords : List (String × TokenKind) :=
  [("and", .andWord), ("break", .breakWord), ("class", .classWord), ("continue", .continueWord),
   ("else", .elseWord), ("false", .falseWord), ("for", .forWord), ("fun", .funWord),
   ("if", .ifWord), ("nil", .nilWord), ("or", .orWord), ("print", .printWord),
   ("return", .returnWord), ("super", .superWord), ("this", .thisWord), ("true", .trueWord),
   ("var", .varWord), ("while", .whileWord)]

/-- The kind of a word. -/
def ofWord (word : String) : TokenKind :=
  (keywords.lookup word).getD .identifier

end TokenKind

/-- A place in a source text. Lines and columns of a text count from one; a line of zero stands for
no place at all. -/
structure Position where
  line : Int
  column : Int
  deriving DecidableEq

/-- A symbol of the grammar: its kind, its text, the value that a numeral or a quoted text stands
for (`nil` for all other tokens), and where it starts. -/
structure Token where
  kind : TokenKind
  lexeme : String
  literal : Value := .nil
  position : Position := ⟨0, 0⟩

namespace Token

/-- The form of a token in a trace. -/
def summary (token : Token) : String :=
  let symbol := token.kind.name ++ " " ++ token.lexeme
  match token.literal with
  | .nil => symbol
  | literal => symbol ++ " " ++ literal.inspect

/-- The form of a token that also shows its position. -/
def inspect (token : Token) : String :=
  "Token(" ++ token.kind.name ++ ", " ++ Text.quoted token.lexeme ++ "@" ++
    toString token.position.line ++ ":" ++ toString token.position.column ++ ")"

/-- Whether two tokens are the same symbol, wherever they stand. -/
def sameAs (left right : Token) : Bool :=
  left.kind == right.kind && left.lexeme == right.lexeme && left.literal.sameAs right.literal

end Token

end LoxLang
