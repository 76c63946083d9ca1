/-
Module: OmniBinder.Idl.Parser
Purpose: The lexer of `tools/omni_idlc/lexer.cpp`, one token after the other, the recursive-descent
  parser of `tools/omni_idlc/parser.cpp` as far as it reads one file, and `Parser::parse` with its imports.
Trusted boundary: human-reviewed spec
Main exports: TokenType, ParserState
-/
import OmniBinder.Idl.Ast
import OmniBinder.Lib.Machine

namespace OmniBinder.Idl

open OmniBinder

inductive TokenType where
  | eof
  | identifier
  | number
  | string
  | package
  | import
  | struct
  | service
  | topic
  | publishes
  | array
  | bool
  | int8
  | uint8
  | int16
  | uint16
  | int32
  | uint32
  | int64
  | uint64
  | float32
  | float64
  | stringType
  | bytes
  | void
  | lbrace
  | rbrace
  | lparen
  | rparen
  | langle
  | rangle
  | semicolon
  | comma
  | dot
  | error
deriving DecidableEq, Repr

def tokenTypeToString : TokenType → String
  | .eof => "EOF"
  | .identifier => "IDENTIFIER"
  | .number => "NUMBER"
  | .string => "STRING"
  | .package => "package"
  | .import => "import"
  | .struct => "struct"
  | .service => "service"
  | .topic => "topic"
  | .publishes => "publishes"
  | .array => "array"
  | .bool => "bool"
  | .int8 => "int8"
  | .uint8 => "uint8"
  | .int16 => "int16"
  | .uint16 => "uint16"
  | .int32 => "int32"
  | .uint32 => "uint32"
  | .int64 => "int64"
  | .uint64 => "uint64"
  | .float32 => "float32"
  | .float64 => "float64"
  | .stringType => "string"
  | .bytes => "bytes"
  | .void => "void"
  | .error => "ERROR"
  | .semicolon => ";"
  | .lbrace => "\x7b"
  | .rbrace => "\x7d"
  | .lparen => "("
  | .rparen => ")"
  | .langle => "<"
  | .rangle => ">"
  | .comma => ","
  | .dot => "."

/-- A token. The text of an identifier consists of identifier characters. -/
structure Token where
  type : TokenType
  value : Bytes
  line : Nat
  column : Nat
  message : Bytes
  identifier : type = .identifier → value.all isIdentifierChar = true

/-- Where the next character stands. -/
structure Position where
  line : Nat
  column : Nat
deriving DecidableEq, Repr

/-- Where the character after this one stands. -/
def Position.after (position : Position) (c : UInt8) : Position :=
  if c = 0x0A then ⟨position.line + 1, 1⟩ else ⟨position.line, position.column + 1⟩

/-- Where the character after these stands. -/
def Position.afterAll (position : Position) (text : Bytes) : Position := text.foldl Position.after position

/-- The rest of the source and where it begins. -/
structure Lexer where
  rest : Bytes
  position : Position

def Lexer.start (source : Bytes) : Lexer := ⟨source, ⟨1, 1⟩⟩

/-! ### Characters -/

def isSpace (c : UInt8) : Bool := c == 0x20 || (0x09 ≤ c && c ≤ 0x0D)

def isDigit (c : UInt8) : Bool := 0x30 ≤ c && c ≤ 0x39

def isAlpha (c : UInt8) : Bool := (0x41 ≤ c && c ≤ 0x5A) || (0x61 ≤ c && c ≤ 0x7A)

/-- What a string literal may not contain. -/
def isUnsafe (c : UInt8) : Bool := c == 0x5C || c < 0x20 || c == 0x7F

/-! ### Between tokens -/

/-- Where the loops of `skipWhitespaceAndComments` are: the second character of an opening or closing
    mark is consumed with the first. -/
inductive SkipMode where
  | code
  | lineComment
  | blockOpening
  | blockComment
  | blockClosing
deriving DecidableEq

/-- A line comment ends before its line feed, which is white space; a block comment ends after its closing
    mark or with the source. -/
def skipFrom : SkipMode → Position → Bytes → Lexer
  | _, position, [] => ⟨[], position⟩
  | .code, position, c :: rest =>
    if isSpace c then skipFrom .code (position.after c) rest
    else if c = 0x2F && rest.head? = some 0x2F then skipFrom .lineComment (position.after c) rest
    else if c = 0x2F && rest.head? = some 0x2A then skipFrom .blockOpening (position.after c) rest
    else ⟨c :: rest, position⟩
  | .lineComment, position, c :: rest =>
    if c = 0x0A then skipFrom .code (position.after c) rest
    else skipFrom .lineComment (position.after c) rest
  | .blockOpening, position, c :: rest => skipFrom .blockComment (position.after c) rest
  | .blockComment, position, c :: rest =>
    if c = 0x2A && rest.head? = some 0x2F then skipFrom .blockClosing (position.after c) rest
    else skipFrom .blockComment (position.after c) rest
  | .blockClosing, position, c :: rest => skipFrom .code (position.after c) rest

def skipWhitespaceAndComments (lexer : Lexer) : Lexer := skipFrom .code lexer.position lexer.rest

/-! ### Tokens -/

def keywords : List (String × TokenType) :=
  [("package", .package), ("import", .import), ("struct", .struct), ("service", .service),
    ("topic", .topic), ("publishes", .publishes), ("array", .array), ("bool", .bool), ("int8", .int8),
    ("uint8", .uint8), ("int16", .int16), ("uint16", .uint16), ("int32", .int32),
    ("uint32", .uint32), ("int64", .int64), ("uint64", .uint64), ("float32", .float32),
    ("float64", .float64), ("string", .stringType), ("bytes", .bytes), ("void", .void)]

/-- The type of a word: a keyword or an identifier. -/
def wordType (word : Bytes) : TokenType :=
  match keywords.find? fun entry => ascii entry.1 = word with
  | some (_, type) => type
  | none => .identifier

def readIdentifierOrKeyword (lexer : Lexer) : Token × Lexer :=
  let word := lexer.rest.takeWhile isIdentifierChar
  (⟨wordType word, word, lexer.position.line, lexer.position.column, [], fun _ => List.all_takeWhile⟩,
    ⟨lexer.rest.dropWhile isIdentifierChar, lexer.position.afterAll word⟩)

def readNumber (lexer : Lexer) : Token × Lexer :=
  let digits := lexer.rest.takeWhile isDigit
  (⟨.number, digits, lexer.position.line, lexer.position.column, [], nofun⟩,
    ⟨lexer.rest.dropWhile isDigit, lexer.position.afterAll digits⟩)

/-- The rest of a string literal after its opening quote. -/
def readString (lexer : Lexer) : Token × Lexer :=
  let line := lexer.position.line
  let column := lexer.position.column
  let body := lexer.rest.drop 1
  let value := body.takeWhile fun c => c ≠ 0x22 && !isUnsafe c
  let position := (lexer.position.afterAll (lexer.rest.take 1)).afterAll value
  match body.dropWhile fun c => c ≠ 0x22 && !isUnsafe c with
  | [] => (⟨.error, value, line, column, ascii "Unterminated string literal", nofun⟩, ⟨[], position⟩)
  | c :: rest =>
    if c = 0x22 then (⟨.string, value, line, column, [], nofun⟩, ⟨rest, position.after c⟩)
    else
      (⟨.error, value, line, column, ascii "Unsafe character in string literal", nofun⟩,
        ⟨c :: rest, position⟩)

def punctuation : UInt8 → Option TokenType
  | 0x7B => some .lbrace
  | 0x7D => some .rbrace
  | 0x28 => some .lparen
  | 0x29 => some .rparen
  | 0x3C => some .langle
  | 0x3E => some .rangle
  | 0x3B => some .semicolon
  | 0x2C => some .comma
  | 0x2E => some .dot
  | _ => none

/-- The text up to the first zero byte, which is where C stops reading. -/
def cText (text : Bytes) : Bytes := text.takeWhile (· ≠ 0)

theorem punctuation_ne_identifier {c : UInt8} (h : punctuation c = some .identifier) : False := by
  unfold punctuation at h
  split at h <;> cases h

/-- One character: a punctuation mark, or one that does not belong here. -/
def readPunctuation (c : UInt8) (lexer : Lexer) : Token × Lexer :=
  let after : Lexer := ⟨lexer.rest.drop 1, lexer.position.after c⟩
  match h : punctuation c with
  | some type =>
    (⟨type, [c], lexer.position.line, lexer.position.column, [],
      fun hidentifier => (punctuation_ne_identifier (hidentifier ▸ h)).elim⟩, after)
  | none =>
    (⟨.error, [c], lexer.position.line, lexer.position.column,
      cText (ascii "Unexpected character '" ++ [c] ++ ascii "'"), nofun⟩, after)

def Lexer.nextToken (lexer : Lexer) : Token × Lexer :=
  let lexer := skipWhitespaceAndComments lexer
  match lexer.rest with
  | [] => (⟨.eof, [], lexer.position.line, lexer.position.column, [], nofun⟩, lexer)
  | c :: _ =>
    if isAlpha c || c = 0x5F then readIdentifierOrKeyword lexer
    else if isDigit c then readNumber lexer
    else if c = 0x22 then readString lexer
    else readPunctuation c lexer

/-- The lexer, the current token, and `error_msg_` once there has been an error, without the path of the
    file. -/
structure ParserState where
  lexer : Lexer
  current : Token
  error : Option Bytes

namespace ParserState

def start (source : Bytes) : ParserState :=
  let next := (Lexer.start source).nextToken
  ⟨next.2, next.1, none⟩

def hasError (s : ParserState) : Bool := s.error.isSome

/-- The current token is of this type. -/
def isAt (s : ParserState) (type : TokenType) : Bool := s.current.type = type

def advance (s : ParserState) : ParserState :=
  { s with lexer := s.lexer.nextToken.2, current := s.lexer.nextToken.1 }

/-- `error`: a later text takes the place of an earlier one. -/
def fail (s : ParserState) (text : Bytes) : ParserState := { s with error := some text }

/-- `errorAtCurrent`: the message of the lexer goes before that of the parser, and 319 characters are
    kept. -/
def failAtCurrent (s : ParserState) (expected : Bytes) : ParserState :=
  let text := if s.isAt .error then s.current.message else expected
  s.fail ((cText text ++ ascii (" at line " ++ toString s.current.line ++ ":" ++
    toString s.current.column)).take 319)

def expect (s : ParserState) (type : TokenType) : Token × ParserState :=
  if s.isAt type then (s.current, s.advance)
  else
    (s.current, s.failAtCurrent (ascii ("Expected '" ++ tokenTypeToString type ++ "' but got '" ++
      tokenTypeToString s.current.type ++ "' ('") ++ s.current.value ++ ascii "')"))

end ParserState

/-- The text of an identifier. Another token is taken for one only together with an error. -/
def Token.ident (token : Token) : Ident :=
  if h : token.type = .identifier then ⟨token.value, token.identifier h⟩ else .empty

/-! ### Types, fields and methods -/

def TokenType.typeRef : TokenType → Option TypeRef
  | .bool => some (.prim .bool)
  | .int8 => some (.prim .int8)
  | .uint8 => some (.prim .uint8)
  | .int16 => some (.prim .int16)
  | .uint16 => some (.prim .uint16)
  | .int32 => some (.prim .int32)
  | .uint32 => some (.prim .uint32)
  | .int64 => some (.prim .int64)
  | .uint64 => some (.prim .uint64)
  | .float32 => some (.prim .float32)
  | .float64 => some (.prim .float64)
  | .stringType => some (.prim .string)
  | .bytes => some (.prim .bytes)
  | .void => some .void
  | _ => none

/-- A name, or a package and a name. -/
def parseCustomType (s : ParserState) : TypeRef × ParserState :=
  let first := s.current.ident
  let s := s.advance
  if s.isAt .dot then
    let s := s.advance
    if s.isAt .identifier then (.custom first s.current.ident, s.advance)
    else
      (.custom .empty .empty, s.fail (ascii "Expected type name after '" ++ first.val ++ ascii ".'"))
  else (.custom .empty first, s)

/-- A type, with so many levels of nesting left. -/
def parseType : Nat → ParserState → TypeRef × ParserState
  | 0, s => (.void, s.fail (ascii "type nesting limit exceeded"))
  | nesting + 1, s =>
    match s.current.type.typeRef with
    | some type => (type, s.advance)
    | none =>
      if s.isAt .array then
        let s := (s.advance.expect .langle).2
        let element := parseType nesting s
        if element.2.hasError then (.array element.1, element.2)
        else (.array element.1, (element.2.expect .rangle).2)
      else if s.isAt .identifier then parseCustomType s
      else
        let got :=
          if s.current.value.isEmpty then ascii (tokenTypeToString s.current.type)
          else s.current.value
        (.void, s.failAtCurrent (ascii "Expected type, got '" ++ got ++ ascii "'"))

def parseField (s : ParserState) : Option FieldDef × ParserState :=
  let type := parseType idlcMaxTypeNesting s
  if type.2.hasError then (none, type.2)
  else
    let name := type.2.expect .identifier
    let s := (name.2.expect .semicolon).2
    (if s.hasError then none else some ⟨type.1, name.1.ident⟩, s)

/-- The end of a method after its parameter. -/
def finishMethod (name : Ident) (returnType : TypeRef) (param : Option ParamDef) (s : ParserState) :
    Option MethodDef × ParserState :=
  let s := ((s.expect .rparen).2.expect .semicolon).2
  (if s.hasError then none else some ⟨name, returnType, param⟩, s)

def parseMethod (s : ParserState) : Option MethodDef × ParserState :=
  let returnType := parseType idlcMaxTypeNesting s
  if returnType.2.hasError then (none, returnType.2)
  else
    let name := returnType.2.expect .identifier
    let s := (name.2.expect .lparen).2
    if s.isAt .rparen then finishMethod name.1.ident returnType.1 none s
    else
      let paramType := parseType idlcMaxTypeNesting s
      if paramType.2.hasError then (none, paramType.2)
      else
        let paramName := paramType.2.expect .identifier
        finishMethod name.1.ident returnType.1 (some ⟨paramType.1, paramName.1.ident⟩) paramName.2

/-! ### Declarations -/

/-- The loop inside braces goes on. -/
def ParserState.inBraces (s : ParserState) : Bool :=
  !s.isAt .rbrace && !s.isAt .eof && !s.hasError

/-- One more field, if it can be read. -/
def addField (x : List FieldDef × ParserState) : List FieldDef × ParserState :=
  let field := parseField x.2
  (x.1 ++ field.1.toList, field.2)

/-- The fields up to the closing brace. -/
def parseFields (turns : Nat) (s : ParserState) : List FieldDef × ParserState :=
  repeatWhile (fun x => x.2.inBraces) addField turns ([], s)

def parseStruct (turns : Nat) (s : ParserState) : StructDef × ParserState :=
  let name := (s.expect .struct).2.expect .identifier
  let fields := parseFields turns (name.2.expect .lbrace).2
  (⟨name.1.ident, fields.1⟩, (fields.2.expect .rbrace).2)

def parseTopic (turns : Nat) (s : ParserState) : TopicDef × ParserState :=
  let name := (s.expect .topic).2.expect .identifier
  let fields := parseFields turns (name.2.expect .lbrace).2
  (⟨name.1.ident, fields.1⟩, (fields.2.expect .rbrace).2)

/-- One more entry of a service: a published topic or a method. -/
def addEntry (x : ServiceDef × ParserState) : ServiceDef × ParserState :=
  if x.2.isAt .publishes then
    let topic := x.2.advance.expect .identifier
    ({ x.1 with publishes := x.1.publishes ++ [topic.1.ident] }, (topic.2.expect .semicolon).2)
  else
    let method := parseMethod x.2
    ({ x.1 with methods := x.1.methods ++ method.1.toList }, method.2)

/-- The entries up to the closing brace. -/
def parseEntries (turns : Nat) (name : Ident) (s : ParserState) : ServiceDef × ParserState :=
  repeatWhile (fun x => x.2.inBraces) addEntry turns (⟨name, [], []⟩, s)

def parseService (turns : Nat) (s : ParserState) : ServiceDef × ParserState :=
  let name := (s.expect .service).2.expect .identifier
  let service := parseEntries turns name.1.ident (name.2.expect .lbrace).2
  (service.1, (service.2.expect .rbrace).2)

/-! ### A file -/

/-- What the main loop of `parse` reads in one turn. -/
inductive Statement where
  | package (name : Ident)
  | import (path : Bytes)
  | struct (definition : StructDef)
  | topic (definition : TopicDef)
  | service (definition : ServiceDef)

/-- One turn of the main loop; no statement if the file goes on with something else. -/
def parseStatement (turns : Nat) (s : ParserState) : Option Statement × ParserState :=
  match s.current.type with
  | .package =>
    let name := (s.expect .package).2.expect .identifier
    (some (.package name.1.ident), (name.2.expect .semicolon).2)
  | .import =>
    let path := (s.expect .import).2.expect .string
    (some (.import path.1.value), (path.2.expect .semicolon).2)
  | .struct => (some (.struct (parseStruct turns s).1), (parseStruct turns s).2)
  | .topic => (some (.topic (parseTopic turns s).1), (parseTopic turns s).2)
  | .service => (some (.service (parseService turns s).1), (parseService turns s).2)
  | _ => (none, s.failAtCurrent (ascii "Unexpected token '" ++ s.current.value ++ ascii "'"))

/-- The statements before the first error or the end of the file, and the text of the error. -/
structure FileSyntax where
  statements : List Statement
  error : Option Bytes

/-- The main loop goes on. -/
def ParserState.inFile (s : ParserState) : Bool := !s.isAt .eof && !s.hasError

/-- One more statement. One in which there is an error is of no consequence, because the file fails with
    it. -/
def addStatement (turns : Nat) (x : List Statement × ParserState) : List Statement × ParserState :=
  let statement := parseStatement turns x.2
  (if statement.2.hasError then x.1 else x.1 ++ statement.1.toList, statement.2)

def readSyntax (turns : Nat) (source : Bytes) : FileSyntax :=
  let file := repeatWhile (fun x => x.2.inFile) (addStatement turns) turns ([], ParserState.start source)
  ⟨file.1, file.2.error⟩

/-- No loop turns more often than the source has characters. -/
def syntaxOf (source : Bytes) : FileSyntax := readSyntax (source.length + 1) source

def idlcMaxSourceBytesPerFile : Nat := 16 * 1024 * 1024

def idlcMaxTotalSourceBytes : Nat := 64 * 1024 * 1024

def idlcMaxImportFiles : Nat := 256

def idlcMaxImportDepth : Nat := 64

/-! ### Paths -/

/-- The contents of files under their canonical names, and the canonical name that a path stands for. -/
structure FileSystem where
  realpath : Bytes → Bytes
  contents : Table Bytes Bytes

/-- The content behind a path. The empty path names no file. -/
def FileSystem.open (files : FileSystem) (path : Bytes) : Option Bytes :=
  if path.isEmpty then none else files.contents[files.realpath path]?

/-- What stands before the last separator. -/
def getDirectory (path : Bytes) : Bytes :=
  match path.reverse.dropWhile fun c => c ≠ 0x2F && c ≠ 0x5C with
  | [] => ascii "."
  | _ :: directory => directory.reverse

def isAbsolutePath (path : Bytes) : Bool := path.head? = some 0x2F

/-- An import path is taken relative to the directory of the importing file. -/
def resolvePath (filePath importPath : Bytes) : Bytes :=
  if isAbsolutePath importPath then importPath
  else getDirectory filePath ++ ascii "/" ++ importPath

/-! ### The context -/

/-- `ParseContext` without the type registry, which nothing reads. -/
structure ParseContext where
  loadedPackages : Packages
  fileToPackage : Table Bytes Ident
  processingFiles : Table Bytes Unit
  allFiles : List Bytes
  totalSourceBytes : Nat
  importFileCount : Nat
  opened : List Bytes

def ParseContext.empty : ParseContext := ⟨Packages.empty, ∅, ∅, [], 0, 0, []⟩

/-- The file is being parsed. Only a file with a path is kept track of. -/
def ParseContext.enter (context : ParseContext) (files : FileSystem) (filePath : Bytes) : ParseContext :=
  if filePath.isEmpty then context
  else { context with processingFiles := context.processingFiles.insert (files.realpath filePath) () }

def ParseContext.leave (context : ParseContext) (files : FileSystem) (filePath : Bytes) : ParseContext :=
  if filePath.isEmpty then context
  else { context with processingFiles := context.processingFiles.erase (files.realpath filePath) }

/-- `error` puts the path of the file before the text. -/
def located (filePath text : Bytes) : Bytes :=
  if filePath.isEmpty then text else filePath ++ ascii ": " ++ text

/-- What a parser answers, with the context it leaves. -/
abbrev Parsed (α : Type) := Except Bytes α × ParseContext

/-! ### Statements -/

/-- Open a file and parse it. `parse` is the parser of the next depth. -/
def loadImport (files : FileSystem) (parse : Bytes → Bytes → ParseContext → Parsed AstFile)
    (filePath resolved : Bytes) (context : ParseContext) : Parsed Ident :=
  let normalized := files.realpath resolved
  let context := { context with opened := context.opened ++ [normalized] }
  match files.open resolved with
  | none => (.error (located filePath (ascii "Cannot open imported file: " ++ resolved)), context)
  | some source =>
    if source.length > idlcMaxSourceBytesPerFile ||
        source.length > idlcMaxTotalSourceBytes - context.totalSourceBytes then
      (.error (located filePath (ascii "Imported IDL source size limit exceeded: " ++ resolved)),
        context)
    else
      let context := { context with
        importFileCount := context.importFileCount + 1
        allFiles := context.allFiles ++ [normalized] }
      match parse resolved source context with
      | (.error text, context) => (.error text, context)
      | (.ok ast, context) =>
        (.ok ast.packageName,
          { context with fileToPackage := context.fileToPackage.insert normalized ast.packageName })

/-- The package of an imported file. There is no parser of the next depth at the depth limit. -/
def parseImport (files : FileSystem) (parse : Option (Bytes → Bytes → ParseContext → Parsed AstFile))
    (filePath importPath : Bytes) (context : ParseContext) : Parsed Ident :=
  let resolved := resolvePath filePath importPath
  let normalized := files.realpath resolved
  match context.fileToPackage[normalized]? with
  | some package => (.ok package, context)
  | none =>
    if context.processingFiles.contains normalized then
      (.error (located filePath (ascii "Circular import detected: " ++ importPath)), context)
    else
      match parse with
      | none => (.error (located filePath (ascii "import depth limit exceeded")), context)
      | some parse =>
        if context.importFileCount ≥ idlcMaxImportFiles then
          (.error (located filePath (ascii "import file limit exceeded")), context)
        else loadImport files parse filePath resolved context

/-- The file so far, and whether an import or a declaration has been seen. -/
structure FileProgress where
  ast : AstFile
  sawImport : Bool
  sawDeclaration : Bool

def FileProgress.start (filePath : Bytes) : FileProgress where
  ast :=
    { packageName := .empty
      filePath := filePath
      importedPackages := []
      structs := []
      topics := []
      services := []
      importsBeforeDeclarations := true
      packageBeforeImportsAndDeclarations := true
      packageDeclarationCount := 0 }
  sawImport := false
  sawDeclaration := false

namespace FileProgress

def addPackage (file : FileProgress) (name : Ident) : FileProgress :=
  { file with ast := { file.ast with
    packageName := name
    packageDeclarationCount := file.ast.packageDeclarationCount + 1
    packageBeforeImportsAndDeclarations :=
      file.ast.packageBeforeImportsAndDeclarations && !(file.sawImport || file.sawDeclaration) } }

def addImport (file : FileProgress) (path : Bytes) (package : Ident) : FileProgress :=
  { file with
    sawImport := true
    ast := { file.ast with
      imports := file.ast.imports ++ [path]
      importedPackages := file.ast.importedPackages ++ [package]
      importsBeforeDeclarations := file.ast.importsBeforeDeclarations && !file.sawDeclaration } }

def addStruct (file : FileProgress) (definition : StructDef) : FileProgress :=
  { file with
    sawDeclaration := true
    ast := { file.ast with structs := file.ast.structs ++ [definition] } }

def addTopic (file : FileProgress) (definition : TopicDef) : FileProgress :=
  { file with
    sawDeclaration := true
    ast := { file.ast with topics := file.ast.topics ++ [definition] } }

def addService (file : FileProgress) (definition : ServiceDef) : FileProgress :=
  { file with
    sawDeclaration := true
    ast := { file.ast with services := file.ast.services ++ [definition] } }

end FileProgress

/-- The statements in their order, until an import fails. -/
def parseStatements (files : FileSystem)
    (parse : Option (Bytes → Bytes → ParseContext → Parsed AstFile)) (filePath : Bytes) :
    List Statement → FileProgress → ParseContext → Parsed FileProgress
  | [], file, context => (.ok file, context)
  | .package name :: statements, file, context =>
    parseStatements files parse filePath statements (file.addPackage name) context
  | .import path :: statements, file, context =>
    match parseImport files parse filePath path context with
    | (.error text, context) => (.error text, context)
    | (.ok package, context) =>
      parseStatements files parse filePath statements (file.addImport path package) context
  | .struct definition :: statements, file, context =>
    parseStatements files parse filePath statements (file.addStruct definition) context
  | .topic definition :: statements, file, context =>
    parseStatements files parse filePath statements (file.addTopic definition) context
  | .service definition :: statements, file, context =>
    parseStatements files parse filePath statements (file.addService definition) context

/-! ### Files -/

/-- The end of `parse`: a file with a package is stored, unless another file has the package. -/
def storePackage (filePath : Bytes) (ast : AstFile) (context : ParseContext) : Parsed AstFile :=
  if ast.packageName.val.isEmpty then (.ok ast, context)
  else
    match context.loadedPackages.find ast.packageName.val with
    | some other =>
      if other.filePath ≠ filePath then
        (.error (located filePath (ascii "Package '" ++ ast.packageName.val ++
          ascii "' already defined in '" ++ other.filePath ++ ascii "'")), context)
      else (.ok ast, { context with loadedPackages := context.loadedPackages.insert ast })
    | none => (.ok ast, { context with loadedPackages := context.loadedPackages.insert ast })

/-- The statements of a file, the error in its text if there is one, and the end of `parse`. -/
def parseBody (files : FileSystem) (parse : Option (Bytes → Bytes → ParseContext → Parsed AstFile))
    (filePath source : Bytes) (context : ParseContext) : Parsed AstFile :=
  let text := syntaxOf source
  match parseStatements files parse filePath text.statements (FileProgress.start filePath) context with
  | (.error text, context) => (.error text, context)
  | (.ok file, context) =>
    match text.error with
    | some message => (.error (located filePath message), context)
    | none => storePackage filePath file.ast context

/-- A parser for one file: the check of its size when it is made, and its run. -/
def parseFile (files : FileSystem) (parse : Option (Bytes → Bytes → ParseContext → Parsed AstFile))
    (filePath source : Bytes) (context : ParseContext) : Parsed AstFile :=
  if source.length > idlcMaxSourceBytesPerFile ||
      context.totalSourceBytes > idlcMaxTotalSourceBytes - source.length then
    (.error (located filePath (ascii "IDL source size limit exceeded")),
      (context.enter files filePath).leave files filePath)
  else
    let context := { context with totalSourceBytes := context.totalSourceBytes + source.length }
    let parsed := parseBody files parse filePath source (context.enter files filePath)
    (parsed.1, parsed.2.leave files filePath)

/-- A file, with so many levels of imports left below it. -/
def parse (files : FileSystem) : Nat → Bytes → Bytes → ParseContext → Parsed AstFile
  | 0 => parseFile files none
  | depth + 1 => parseFile files (some (parse files depth))

/-- The root file, in a new context. -/
def parseRoot (files : FileSystem) (path : Bytes) : Parsed AstFile :=
  match files.open path with
  | none => (.error (ascii "Cannot open file: " ++ path), ParseContext.empty)
  | some source => parse files idlcMaxImportDepth path source ParseContext.empty

end OmniBinder.Idl
