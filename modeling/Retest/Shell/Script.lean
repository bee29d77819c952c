import Retest.Shell.Syntax

/-! Reading scripts. A script is read one complete command at a time, so that what stands before a
mistake is still run. -/

namespace Retest.Shell

abbrev Read := StateT (List Char) Option

/-- Where the pieces of a word end: before a character that ends words, behind the quote, at the end
of a document, behind a closing brace, or behind the two parentheses that close a sum. -/
inductive Ending where
  | word
  | quote
  | document
  | brace (quoted : Bool)
  | sum
  deriving Repr, DecidableEq

def Ending.isQuoted : Ending → Bool
  | .word => false
  | .brace quoted => quoted
  | _ => true

def Ending.escapes : Ending → List Char
  | .document => "$`\\".toList
  | .brace _ => "$`\"\\\x7d".toList
  | _ => "$`\"\\".toList

def closers : List (List Char) :=
  ["then", "else", "elif", "fi", "do", "done", "esac", "\x7d"].map String.toList

def leadingWord (s : List Char) : List Char :=
  let w := s.takeWhile fun c => !isMeta c
  if w.any "'\"\\$`".toList.contains then [] else w

def afterBlanks : List Char → List Char
  | ' ' :: rest | '\t' :: rest => afterBlanks rest
  | '\\' :: '\n' :: rest => afterBlanks rest
  | '#' :: rest => rest.dropWhile (· ≠ '\n')
  | s => s

def afterLines : Nat → List Char → List Char
  | 0, s => s
  | fuel + 1, s =>
    match afterBlanks s with
    | '\n' :: rest => afterLines fuel rest
    | s => s

def skipBlanks : Read Unit := modify afterBlanks

def skipLines : Read Unit := modify fun s => afterLines (s.length + 1) s

def expectText (t : List Char) : Read Unit := do
  let s ← get
  if t.isPrefixOf s then set (s.drop t.length) else failure

def expectWord (t : String) : Read Unit := do
  skipLines
  let s ← get
  if leadingWord s = t.toList then set (s.drop t.length) else failure

def endsList (s : List Char) : Bool :=
  match s with
  | [] | ')' :: _ | ';' :: ';' :: _ => true
  | s => closers.contains (leadingWord s)

/-- What stands between backquotes, and what follows. A backslash takes the meaning from a few
characters. -/
def takeBackquoted (quoted : Bool) : List Char → Option (List Char × List Char)
  | [] => none
  | '\x60' :: rest => some ([], rest)
  | '\\' :: c :: rest =>
    (takeBackquoted quoted rest).map fun r =>
      if c = '$' ∨ c = '\x60' ∨ c = '\\' ∨ (quoted ∧ c = '"') then (c :: r.1, r.2)
      else ('\\' :: c :: r.1, r.2)
  | c :: rest => (takeBackquoted quoted rest).map fun r => (c :: r.1, r.2)

def takeDelimiter : Nat → List Char → List Char × Bool × List Char
  | 0, s => ([], false, s)
  | _, [] => ([], false, [])
  | fuel + 1, c :: rest =>
    if c = '\'' ∨ c = '"' then
      let inside := rest.takeWhile (· ≠ c)
      let (more, _, rest) := takeDelimiter fuel (rest.drop (inside.length + 1))
      (inside ++ more, true, rest)
    else if c = '\\' then
      let (more, _, after) := takeDelimiter fuel (rest.drop 1)
      (rest.take 1 ++ more, true, after)
    else if isMeta c then ([], false, c :: rest)
    else
      let (more, quoted, rest) := takeDelimiter fuel rest
      (c :: more, quoted, rest)

/-- The rest of a line, and what follows its end. A line goes on in quotes. -/
def takeRestOfLine : Option Char → List Char → List Char × List Char
  | _, [] => ([], [])
  | none, '\n' :: rest => ([], rest)
  | quote, '\\' :: c :: rest =>
    if quote = some '\'' then
      let (line, after) := takeRestOfLine (if c = '\'' then none else quote) rest
      ('\\' :: c :: line, after)
    else
      let (line, after) := takeRestOfLine quote rest
      ('\\' :: c :: line, after)
  | quote, c :: rest =>
    let next := match quote with
      | none => if c = '\'' ∨ c = '"' then some c else none
      | some q => if c = q then none else some q
    let (line, after) := takeRestOfLine next rest
    (c :: line, after)

def takeDocument (trims : Bool) (delimiter : List Char) :
    Nat → List Char → List Char × List Char
  | 0, s => ([], s)
  | _, [] => ([], [])
  | fuel + 1, s =>
    let line := s.takeWhile (· ≠ '\n')
    let rest := s.drop line.length
    let text := if trims then line.dropWhile (· = '\t') else line
    if text = delimiter then ([], rest.drop 1)
    else
      let (more, after) := takeDocument trims delimiter fuel (rest.drop 1)
      (text ++ rest.take 1 ++ more, after)

def cutDocument (trims : Bool) (delimiter : List Char) : Read (List Char) := do
  let (line, below) := takeRestOfLine none (← get)
  let (text, after) := takeDocument trims delimiter (below.length + 1) below
  set (line ++ '\n' :: after)
  return text

def takeUse (s : List Char) : Option (Use × List Char) :=
  let (colon, s) := match s with
    | ':' :: rest => (true, rest)
    | s => (false, s)
  match s with
  | '-' :: rest => some (.fallback colon, rest)
  | '=' :: rest => some (.assign colon, rest)
  | '?' :: rest => some (.demand colon, rest)
  | '+' :: rest => some (.instead colon, rest)
  | '#' :: '#' :: rest => if colon then none else some (.dropFront true, rest)
  | '#' :: rest => if colon then none else some (.dropFront false, rest)
  | '%' :: '%' :: rest => if colon then none else some (.dropBack true, rest)
  | '%' :: rest => if colon then none else some (.dropBack false, rest)
  | _ => none

def takeName (s : List Char) : Option (List Char × List Char) :=
  match s with
  | c :: rest =>
    if isNameStart c then some (s.takeWhile isNameChar, s.dropWhile isNameChar)
    else if c.isDigit then some (s.takeWhile Char.isDigit, s.dropWhile Char.isDigit)
    else if isSpecialName c then some ([c], rest)
    else none
  | [] => none

def takeDirection (s : List Char) : Option (Nat × Direction × Bool × List Char) :=
  let (channel, s) := match s with
    | c :: d :: rest =>
      if c.isDigit ∧ (d = '<' ∨ d = '>') then (some (c.toNat - 48), d :: rest) else (none, s)
    | s => (none, s)
  let into (d : Direction) (rest : List Char) := some (channel.getD 0, d, false, rest)
  let outOf (d : Direction) (rest : List Char) := some (channel.getD 1, d, false, rest)
  match s with
  | '<' :: '<' :: '-' :: rest => some (channel.getD 0, .document, true, rest)
  | '<' :: '<' :: rest => into .document rest
  | '<' :: '&' :: rest => into .duplicate rest
  | '<' :: '>' :: rest => into .both rest
  | '<' :: rest => into .input rest
  | '>' :: '>' :: rest => outOf .append rest
  | '>' :: '&' :: rest => outOf .duplicate rest
  | '>' :: '|' :: rest => outOf .output rest
  | '>' :: rest => outOf .output rest
  | _ => none

def Command.withRedirections (c : Command) : List Redirection → Command
  | [] => c
  | l => .redirected c l

mutual

/-- The pieces before an ending, which is taken too unless it ends a word. In a sum, `depth` counts
the parentheses that are open. -/
def readPieces : Nat → Ending → Nat → Read Word
  | 0, _, _ => failure
  | fuel + 1, ending, depth => do
    let quoted := ending.isQuoted
    let more (piece : Piece) : Read Word := do
      return piece :: (← readPieces fuel ending depth)
    match ← get with
    | [] =>
      if ending = .word ∨ ending = .document then return [] else failure
    | '\\' :: '\n' :: rest =>
      set rest
      readPieces fuel ending depth
    | '\\' :: c :: rest =>
      set rest
      if quoted && !ending.escapes.contains c then more (.text ['\\', c] true)
      else more (.text [c] true)
    | ['\\'] =>
      set ([] : List Char)
      more (.text ['\\'] quoted)
    | '$' :: rest =>
      set rest
      more (← readParameter fuel quoted)
    | '\x60' :: rest =>
      match takeBackquoted (quoted && ending ≠ .document) rest with
      | none => failure
      | some (script, rest) =>
        set script
        let body ← readAll fuel
        set rest
        more (.output body quoted)
    | c :: rest =>
      if c = '\'' && (ending = .word || ending = .brace false) then
        let inside := rest.takeWhile (· ≠ '\'')
        if rest.length = inside.length then failure
        else
          set (rest.drop (inside.length + 1))
          more (.text inside true)
      else if c = '"' && ending = .quote then
        set rest
        return []
      else if c = '"' && ending ≠ .document && ending ≠ .sum then
        set rest
        let inside ← readPieces fuel .quote 0
        return .text [] true :: inside ++ (← readPieces fuel ending depth)
      else
        match ending with
        | .word =>
          if isMeta c then return []
          else
            set rest
            more (.text [c] false)
        | .brace _ =>
          set rest
          if c = '}' then return [] else more (.text [c] quoted)
        | .sum =>
          if c = '(' then
            set rest
            return .text [c] true :: (← readPieces fuel ending (depth + 1))
          else if c = ')' then
            if 0 < depth then
              set rest
              return .text [c] true :: (← readPieces fuel ending (depth - 1))
            else
              match rest with
              | ')' :: rest =>
                set rest
                return []
              | _ => failure
          else
            set rest
            more (.text [c] true)
        | _ =>
          set rest
          more (.text [c] true)

def readParameter : Nat → Bool → Read Piece
  | 0, _ => failure
  | fuel + 1, quoted => do
    match ← get with
    | '(' :: '(' :: rest =>
      set rest
      return .sum (joinTexts (← readPieces fuel .sum 0)) quoted
    | '(' :: rest =>
      set rest
      let body ← readList fuel
      expectText [')']
      return .output body quoted
    | '{' :: '#' :: '}' :: rest =>
      set rest
      return .parameter ['#'] .value [] quoted
    | '{' :: '#' :: rest =>
      match takeName rest with
      | some (name, '}' :: rest) =>
        set rest
        return .parameter name .size [] quoted
      | _ => failure
    | '{' :: rest =>
      match takeName rest with
      | none => failure
      | some (name, '}' :: rest) =>
        set rest
        return .parameter name .value [] quoted
      | some (name, rest) =>
        match takeUse rest with
        | none =>
          let word ← do
            set rest
            readPieces fuel (.brace quoted) 0
          return .parameter name .mistaken (joinTexts word) quoted
        | some (use, rest) =>
          set rest
          let isPattern := match use with
            | .dropFront _ | .dropBack _ => true
            | _ => false
          let word ← readPieces fuel (.brace (quoted && !isPattern)) 0
          return .parameter name use (joinTexts word) quoted
    | c :: rest =>
      if isNameStart c then
        set (rest.dropWhile isNameChar)
        return .parameter (c :: rest.takeWhile isNameChar) .value [] quoted
      else if isSpecialName c then
        set rest
        return .parameter [c] .value [] quoted
      else return .text ['$'] quoted
    | [] => return .text ['$'] quoted

def readRedirection : Nat → Read (Option Redirection)
  | 0 => failure
  | fuel + 1 => do
    match takeDirection (← get) with
    | none => return none
    | some (channel, direction, trims, rest) =>
      set (afterBlanks rest)
      if direction = .document then
        let (delimiter, quoted, rest) := takeDelimiter (rest.length + 1) (afterBlanks rest)
        if delimiter.isEmpty && !quoted then failure
        set rest
        let text ← cutDocument trims delimiter
        if quoted then return some (channel, direction, [.text text true])
        else
          let rest ← get
          set text
          let word ← readPieces fuel .document 0
          set rest
          return some (channel, direction, joinTexts word)
      else
        let word ← readPieces fuel .word 0
        if word.isEmpty then failure
        return some (channel, direction, joinTexts word)

def readRedirections : Nat → Read (List Redirection)
  | 0 => failure
  | fuel + 1 => do
    skipBlanks
    match ← readRedirection fuel with
    | none => return []
    | some r => return r :: (← readRedirections fuel)

def readWords : Nat → Read (List Word)
  | 0 => failure
  | fuel + 1 => do
    skipBlanks
    let word ← readPieces fuel .word 0
    if word.isEmpty then return []
    return joinTexts word :: (← readWords fuel)

def readSimple : Nat → List (List Char × Word) → List Word → List Redirection → Read Command
  | 0, _, _, _ => failure
  | fuel + 1, assignments, words, redirections => do
    skipBlanks
    match ← readRedirection fuel with
    | some r => readSimple fuel assignments words (redirections ++ [r])
    | none =>
      match words, ← get with
      | [name], '(' :: rest =>
        match plainText? name, afterBlanks rest with
        | some name, ')' :: rest =>
          if !assignments.isEmpty || !redirections.isEmpty || !isName name then failure
          set rest
          skipLines
          return .definition name (← readCommand fuel)
        | _, _ => failure
      | _, _ =>
        let word := joinTexts (← readPieces fuel .word 0)
        if word.isEmpty then
          if assignments.isEmpty && words.isEmpty && redirections.isEmpty then failure
          return .simple assignments words redirections
        match words, assignment? word with
        | [], some a => readSimple fuel (assignments ++ [a]) words redirections
        | _, _ => readSimple fuel assignments (words ++ [word]) redirections

def readCommand : Nat → Read Command
  | 0 => failure
  | fuel + 1 => do
    skipBlanks
    let s ← get
    let word := leadingWord s
    let open_ : Read Unit := set (s.drop word.length)
    let finish (c : Command) : Read Command := do
      return c.withRedirections (← readRedirections fuel)
    match s, String.ofList word with
    | '(' :: rest, _ =>
      set rest
      let body ← readBody fuel
      expectText [')']
      finish (.subshell body)
    | _, "\x7b" =>
      open_
      let body ← readBody fuel
      expectWord "\x7d"
      finish body
    | _, "if" =>
      open_
      finish (← readCondition fuel)
    | _, "while" =>
      open_
      finish (← readLoop fuel false)
    | _, "until" =>
      open_
      finish (← readLoop fuel true)
    | _, "for" =>
      open_
      skipBlanks
      let s ← get
      let name := leadingWord s
      if !isName name then failure
      set (s.drop name.length)
      let words ← readEachWords fuel
      expectWord "do"
      let body ← readBody fuel
      expectWord "done"
      finish (.each name words body)
    | _, "case" =>
      open_
      skipBlanks
      let subject ← readPieces fuel .word 0
      if subject.isEmpty then failure
      expectWord "in"
      finish (.choice (joinTexts subject) (← readBranches fuel))
    | _, _ => if closers.contains word then failure else readSimple fuel [] [] []

def readEachWords : Nat → Read (List Word)
  | 0 => failure
  | fuel + 1 => do
    let arguments : List Word := [[.parameter ['@'] .value [] true]]
    skipBlanks
    match ← get with
    | ';' :: rest =>
      set rest
      return arguments
    | _ =>
      skipLines
      let s ← get
      if leadingWord s = "in".toList then
        set (s.drop 2)
        let words ← readWords fuel
        match ← get with
        | ';' :: rest =>
          set rest
          return words
        | '\n' :: _ => return words
        | _ => failure
      else return arguments

def readCondition : Nat → Read Command
  | 0 => failure
  | fuel + 1 => do
    let test ← readBody fuel
    expectWord "then"
    let yes ← readBody fuel
    let s ← get
    match String.ofList (leadingWord s) with
    | "fi" =>
      set (s.drop 2)
      return .condition test yes .empty
    | "else" =>
      set (s.drop 4)
      let no ← readBody fuel
      expectWord "fi"
      return .condition test yes no
    | "elif" =>
      set (s.drop 4)
      return .condition test yes (← readCondition fuel)
    | _ => failure

def readLoop : Nat → Bool → Read Command
  | 0, _ => failure
  | fuel + 1, until_ => do
    let test ← readBody fuel
    expectWord "do"
    let body ← readBody fuel
    expectWord "done"
    return .loop until_ test body

def readBranches : Nat → Read (List (List Word × Command))
  | 0 => failure
  | fuel + 1 => do
    skipLines
    let s ← get
    if leadingWord s = "esac".toList then
      set (s.drop 4)
      return []
    match s with
    | '(' :: rest => set rest
    | _ => pure ()
    let patterns ← readPatterns fuel
    let body ← readList fuel
    match ← get with
    | ';' :: ';' :: rest =>
      set rest
      return (patterns, body) :: (← readBranches fuel)
    | s =>
      if leadingWord s ≠ "esac".toList then failure
      set (s.drop 4)
      return [(patterns, body)]

def readPatterns : Nat → Read (List Word)
  | 0 => failure
  | fuel + 1 => do
    skipBlanks
    let word ← readPieces fuel .word 0
    if word.isEmpty then failure
    skipBlanks
    match ← get with
    | ')' :: rest =>
      set rest
      return [joinTexts word]
    | '|' :: rest =>
      set rest
      return joinTexts word :: (← readPatterns fuel)
    | _ => failure

def readPipeline : Nat → Read Command
  | 0 => failure
  | fuel + 1 => do
    skipBlanks
    let s ← get
    let negated := leadingWord s = ['!']
    if negated then
      set (afterBlanks (s.drop 1))
      if leadingWord (← get) = ['!'] then failure
    let first ← readCommand fuel
    let rest ← readStages fuel
    let c := if rest.isEmpty then first else .pipeline (first :: rest)
    return if negated then .negation c else c

def readStages : Nat → Read (List Command)
  | 0 => failure
  | fuel + 1 => do
    skipBlanks
    match ← get with
    | '|' :: '|' :: _ => return []
    | '|' :: rest =>
      set rest
      skipLines
      let stage ← readCommand fuel
      return stage :: (← readStages fuel)
    | _ => return []

def readChain : Nat → Read Command
  | 0 => failure
  | fuel + 1 => do
    readChainRest fuel (← readPipeline fuel)

def readChainRest : Nat → Command → Read Command
  | 0, _ => failure
  | fuel + 1, first => do
    skipBlanks
    match ← get with
    | '&' :: '&' :: rest =>
      set rest
      skipLines
      readChainRest fuel (.both first (← readPipeline fuel))
    | '|' :: '|' :: rest =>
      set rest
      skipLines
      readChainRest fuel (.either first (← readPipeline fuel))
    | _ => return first

/-- Commands one after the other, up to what ends the list. There may be none. -/
def readList : Nat → Read Command
  | 0 => failure
  | fuel + 1 => do
    skipLines
    if endsList (← get) then return .empty
    let c ← readChain fuel
    skipBlanks
    match ← get with
    | ';' :: ';' :: _ => return c
    | ';' :: rest | '\n' :: rest =>
      set rest
      let more ← readList fuel
      return .sequence c more
    | '&' :: rest =>
      set rest
      return .sequence (.background c) (← readList fuel)
    | s => if endsList s then return c else failure

def readBody : Nat → Read Command
  | 0 => failure
  | fuel + 1 => do
    skipLines
    if endsList (← get) then failure
    readList fuel

def readAll : Nat → Read Command
  | 0 => failure
  | fuel + 1 => do
    let c ← readList fuel
    if (← get).isEmpty then return c else failure

end

def readLine : Nat → Read Command
  | 0 => failure
  | fuel + 1 => do
    let s ← get
    let c ← readChain (8 * s.length + 64)
    skipBlanks
    let (c, rest) ← match ← get with
      | '&' :: rest => pure (Command.background c, rest)
      | ';' :: ';' :: _ => failure
      | ';' :: rest => pure (c, rest)
      | '\n' :: rest =>
        set rest
        return c
      | [] => return c
      | _ => failure
    match afterBlanks rest with
    | '\n' :: rest =>
      set rest
      return c
    | [] =>
      set ([] : List Char)
      return c
    | rest =>
      set rest
      return .sequence c (← readLine fuel)

/-- What comes next in a script: nothing more, a mistake, or the commands of a line and the rest of
the script. -/
inductive Reading where
  | finished
  | mistaken
  | line (c : Command) (rest : List Char)

def Reading.ofScript (script : List Char) : Reading :=
  match afterLines (script.length + 1) script with
  | [] => .finished
  | s =>
    match (readLine (s.length + 1)).run s with
    | none => .mistaken
    | some (c, rest) => .line c rest

end Retest.Shell
