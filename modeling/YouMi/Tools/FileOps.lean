import YouMi.Library.FileTree
import YouMi.Library.Runs
import YouMi.Python.Text

/-!
# The file tools

`tools/file_ops` under the provider that binds a working directory to it, and the check of
paths of the sandbox.  A tool awaits nothing, so a call is one step.  The rights of files
are left out, and so are the tools that run commands.
-/

namespace YouMi.Tools

open YouMi.Library YouMi.Python

abbrev Files := FileTree (List UInt8)

/-! ## Paths and lines -/

/-- The part of a text before each separator, and after the last. -/
def splitAt (separator : Char) : List Char → List (List Char)
  | [] => [[]]
  | c :: rest =>
      if c = separator then [] :: splitAt separator rest
      else
        match splitAt separator rest with
        | [] => [[c]]
        | first :: others => (c :: first) :: others

/-- `Path(text)`. -/
def parsePath (text : String) : Route where
  absolute := text.toList.head? = some '/'
  names := ((splitAt '/' text.toList).map String.ofList).filter fun name => name ≠ "" ∧ name ≠ "."

def pathText (place : Place) : String := "/" ++ "/".intercalate place.reverse

/-- The path of a place under another, from there. -/
def relativeText (base place : Place) : String :=
  "/".intercalate (place.take (place.length - base.length)).reverse

/-- What a text file reads: every end of a line is one character. -/
def universalNewlines : List Char → List Char
  | '\r' :: '\n' :: rest => '\n' :: universalNewlines rest
  | '\r' :: rest => '\n' :: universalNewlines rest
  | c :: rest => c :: universalNewlines rest
  | [] => []

def endsLine (c : Char) : Bool :=
  c.toNat ∈ [10, 11, 12, 13, 28, 29, 30, 0x85, 0x2028, 0x2029]

/-- `text.splitlines()` of a text without `\r\n`. -/
def splitLines : List Char → List (List Char)
  | [] => []
  | c :: rest =>
      if endsLine c then [] :: splitLines rest
      else
        match splitLines rest with
        | [] => [[c]]
        | first :: others => (c :: first) :: others

/-- The lines of the file whose text this is. -/
def linesOf (text : String) : List String :=
  (splitLines (universalNewlines text.toList)).map String.ofList

/-- `f"{text:<{width}s}"` -/
def padRight (width : Nat) (text : String) : String :=
  text ++ String.ofList (List.replicate (width - text.toList.length) ' ')

def padLeft (width : Nat) (text : String) : String :=
  String.ofList (List.replicate (width - text.toList.length) ' ') ++ text

/-- Digits in groups of three, the last digit first. -/
def groupDigits : List Char → List Char
  | a :: b :: c :: d :: rest => a :: b :: c :: ',' :: groupDigits (d :: rest)
  | digits => digits

/-- `f"{size:>10,d}"` -/
def sizeText (size : Nat) : String :=
  padLeft 10 (String.ofList (groupDigits (Nat.toDigits 10 size).reverse).reverse)

/-! ## The interpreter and its host -/

/-- `SandboxPolicy`, as far as paths are concerned. -/
structure SandboxPolicy where
  enabled : Bool := true
  allowedRoots : List String := []

/-- What the tools are given: where the process runs, how long a chain of links is followed,
the policy, the working directory of the provider, and what the interpreter does with texts. -/
structure Host where
  workDir : String
  cwd : Place
  steps : Nat
  policy : SandboxPolicy
  /-- In an encoding, at the start of a file or after it, which tells where a byte order mark
  goes.  `none`: the encoding is unknown, or a character has none in it. -/
  encode : String → Bool → String → Option (List UInt8)
  /-- An error that is no `UnicodeDecodeError` comes with its text. -/
  decode : String → List UInt8 → Except (Option String) String
  decodeIgnoring : List UInt8 → String
  lower : String → String
  fnmatch : String → String → Bool
  /-- `re.compile` with its flags, and the text of its error. -/
  compile : String → Bool → Except String (String → Bool)
  /-- The text of what the operating system raises. -/
  osError : Place → String
  /-- The text of what a circle of links raises. -/
  loopError : String → String
  /-- The size that is told of a directory. -/
  dirSize : Place → Nat

namespace Host

variable (host : Host) (t : Files)

/-- `path.resolve()` -/
def resolve (path : Route) : Except String Place :=
  match t.realpath host.steps (if path.absolute then [] else host.cwd) path.names with
  | some place => .ok place
  | none => .error (host.loopError (pathText path.names.reverse))

/-- `Path(work_dir).resolve()` -/
def base : Except String Place := host.resolve t (parsePath host.workDir)

/-- Whether one of the roots is above the place. -/
def underRoots (place : Place) : List String → Except String Bool
  | [] => .ok false
  | root :: roots =>
      match host.resolve t (parsePath root) with
      | .error raised => .error raised
      | .ok root => if root <:+ place then .ok true else underRoots place roots

/-- `Sandbox.check_path`, of a path that has been resolved. -/
def checkPath (place : Place) : Except String Place :=
  match host.resolve t { absolute := true, names := place.reverse } with
  | .error raised => .error raised
  | .ok resolved =>
      if host.policy.allowedRoots = [] ∨ host.policy.enabled = false then .ok resolved
      else
        match host.underRoots t resolved host.policy.allowedRoots with
        | .error raised => .error raised
        | .ok true => .ok resolved
        | .ok false => .error ("路径 '" ++ pathText place ++ "' 不在沙箱允许的根目录内")

/-- `_resolve_safe_path` -/
def resolveSafePath (path : String) : Except String Place :=
  match host.base t with
  | .error raised => .error raised
  | .ok base =>
      let target := parsePath path
      match host.resolve t
          (if target.absolute then target
            else { absolute := true, names := base.reverse ++ target.names }) with
      | .error raised => .error raised
      | .ok resolved =>
          if base <:+ resolved then
            match host.checkPath t resolved with
            | .error raised => .error raised
            | .ok _ => .ok resolved
          else
            .error ("路径 '" ++ path ++ "' 超出沙箱目录 '" ++ host.workDir ++ "'，操作被拒绝")

/-! ## Reading -/

/-- What `file_read` returns of a text. -/
def readText (path text : String) (maxLines startLine : Int) : String :=
  let lines := linesOf text
  let start := (startLine - 1).toNat
  if 0 < maxLines then
    let last := min lines.length (start + maxLines.toNat)
    "[文件: " ++ path ++ " | 行 " ++ toString (start + 1) ++ "-" ++ toString last ++ "/" ++
      toString lines.length ++ "]\n" ++ "\n".intercalate ((lines.take last).drop start)
  else
    "[文件: " ++ path ++ " | 共 " ++ toString lines.length ++ " 行]\n" ++
      "\n".intercalate (lines.drop start)

def fileRead (path encoding : String) (maxLines startLine : Int) : Except String String :=
  match host.resolveSafePath t path with
  | .error raised => .error raised
  | .ok place =>
      match t.stat host.steps place with
      | none => .ok ("错误: 文件 '" ++ path ++ "' 不存在")
      | some (.file content) =>
          match host.decode encoding content with
          | .ok text => .ok (readText path text maxLines startLine)
          | .error none =>
              .ok ("错误: 无法以 " ++ encoding ++ " 编码读取 '" ++ path ++ "'，可能是二进制文件")
          | .error (some raised) => .ok ("错误: 读取失败 - " ++ raised)
      | some _ => .ok ("错误: '" ++ path ++ "' 不是文件")

/-- `entry.is_dir()` and `entry.is_file()`, which follow links. -/
def isDirAt (place : Place) : Bool :=
  match t.stat host.steps place with
  | some .dir => true
  | _ => false

def isFileAt (place : Place) : Bool :=
  match t.stat host.steps place with
  | some (.file _) => true
  | _ => false

/-- A line of `list_directory`; `none` where `entry.stat()` raises. -/
def entryLine (detail : Bool) (place : Place) (name : String) : Option String :=
  if detail then
    match t.stat host.steps (name :: place) with
    | some .dir =>
        some ("  [d] " ++ padRight 40 name ++ " " ++ sizeText (host.dirSize (name :: place)) ++
          " bytes")
    | some (.file content) =>
        some ("  [f] " ++ padRight 40 name ++ " " ++ sizeText content.length ++ " bytes")
    | _ => none
  else some ("  " ++ name ++ if host.isDirAt t (name :: place) then "/" else "")

/-- Directories before files, and then by the lower case of the name. -/
def listedBefore (place : Place) (first second : String) : Bool :=
  let firstDir := host.isDirAt t (first :: place)
  let secondDir := host.isDirAt t (second :: place)
  if firstDir = secondDir then decide (host.lower first ≤ host.lower second) else firstDir

def listDirectory (path : String) (showHidden detail : Bool) : Except String String :=
  match host.resolveSafePath t path with
  | .error raised => .error raised
  | .ok place =>
      match t.stat host.steps place with
      | none => .ok ("错误: 目录 '" ++ path ++ "' 不存在")
      | some .dir =>
          let names := ((t.names place).mergeSort (host.listedBefore t place)).filter fun name =>
            showHidden || name.toList.head? ≠ some '.'
          match names.mapM (host.entryLine t detail place) with
          | none => .error (host.osError place)
          | some [] => .ok ("目录 '" ++ path ++ "' 为空")
          | some lines =>
              .ok ("[目录: " ++ path ++ " | " ++ toString lines.length ++ " 项]\n" ++
                "\n".intercalate lines)
      | some _ => .ok ("错误: '" ++ path ++ "' 不是目录")

/-! ## Searching -/

/-- `os.walk` without hidden directories: each directory with the names in it that are those
of no directory.  It does not go through links. -/
def walkFrom (host : Host) (t : Files) : Nat → Place → List (Place × List String)
  | 0, _ => []
  | depth + 1, place =>
      let dirs := (t.names place).filter fun name => host.isDirAt t (name :: place)
      (place, (t.names place).filter fun name => !host.isDirAt t (name :: place)) ::
        (dirs.filter fun name =>
          name.toList.head? ≠ some '.' && (t.links (name :: place)).isNone).flatMap
            fun name => walkFrom host t depth (name :: place)

def walkAll (base : Place) : List (Place × List String) :=
  if t.isDir base then walkFrom host t (t.depth + 1) base else []

/-- The results that are kept: the loop ends after the one that reaches the bound. -/
def bounded {α : Type} (maxResults : Int) (found : List α) : List α :=
  found.take (max 1 maxResults.toNat)

def fileSearch (pattern : String) (recursive : Bool) (maxResults : Int) : Except String String :=
  match host.base t with
  | .error raised => .error raised
  | .ok base =>
      if (t.stat host.steps base).isNone then .ok ("错误: 目录 '" ++ host.workDir ++ "' 不存在")
      else
        let found :=
          if recursive then
            (host.walkAll t base).flatMap fun visited =>
              (visited.2.filter fun name =>
                host.fnmatch name pattern ||
                  host.fnmatch (relativeText base (name :: visited.1)) pattern).map
                    fun name => relativeText base (name :: visited.1)
          else
            (t.names base).filter fun name =>
              host.isFileAt t (name :: base) && host.fnmatch name pattern
        if recursive = false ∧ t.isDir base = false then .error (host.osError base)
        else
          let kept := bounded maxResults found
          if kept = [] then .ok ("未找到匹配 '" ++ pattern ++ "' 的文件")
          else
            .ok ("找到 " ++ toString kept.length ++ " 个文件:\n" ++
              String.join (kept.map fun name => "  " ++ name ++ "\n") ++
              if maxResults ≤ kept.length then
                "  ... (已达到最大返回数 " ++ toString maxResults ++ ")"
              else "")

/-- The lines of a file that match, up to the one that reaches the bound. -/
def matchLines (isMatch : String → Bool) (maxResults : Int) (name : String) :
    List (Nat × String) → List String → List String
  | [], found => found
  | (number, line) :: lines, found =>
      if isMatch line then
        let found := found ++
          [name ++ ":" ++ toString number ++ ": " ++
            String.ofList ((trim isSpace line.toList).take 120)]
        if maxResults ≤ found.length then found else matchLines isMatch maxResults name lines found
      else matchLines isMatch maxResults name lines found

/-- The files of a directory: how many were searched, what was found, and whether the bound
was reached after one that could be read. -/
def matchFiles (host : Host) (t : Files) (isMatch : String → Bool) (maxResults : Int)
    (base place : Place) : List String → Nat × List String → Nat × List String
  | [], done => done
  | name :: names, (searched, found) =>
      match t.stat host.steps (name :: place) with
      | some (.file content) =>
          let lines := linesOf (host.decodeIgnoring content)
          let found := matchLines isMatch maxResults (relativeText base (name :: place))
            ((List.range' 1 lines.length).zip lines) found
          if maxResults ≤ found.length then (searched + 1, found)
          else matchFiles host t isMatch maxResults base place names (searched + 1, found)
      | _ => matchFiles host t isMatch maxResults base place names (searched + 1, found)

def matchDirs (host : Host) (t : Files) (isMatch : String → Bool) (filePattern : String)
    (maxResults : Int) (base : Place) :
    List (Place × List String) → Nat × List String → Nat × List String
  | [], done => done
  | (place, names) :: visited, done =>
      let done := matchFiles host t isMatch maxResults base place
        (names.filter fun name => host.fnmatch name filePattern) done
      if maxResults ≤ done.2.length then done
      else matchDirs host t isMatch filePattern maxResults base visited done

def textSearch (pattern filePattern : String) (caseSensitive : Bool) (maxResults : Int) :
    Except String String :=
  match host.base t with
  | .error raised => .error raised
  | .ok base =>
      if (t.stat host.steps base).isNone then .ok ("错误: 目录 '" ++ host.workDir ++ "' 不存在")
      else
        match host.compile pattern caseSensitive with
        | .error raised => .ok ("错误: 无效的正则表达式 - " ++ raised)
        | .ok isMatch =>
            let done := matchDirs host t isMatch filePattern maxResults base
              (host.walkAll t base) (0, [])
            if done.2 = [] then
              .ok ("在 " ++ toString done.1 ++ " 个文件中未找到匹配 '" ++ pattern ++ "' 的内容")
            else
              .ok ("[搜索: '" ++ pattern ++ "' | " ++ toString done.1 ++ " 个文件 | " ++
                toString done.2.length ++ " 处匹配]\n" ++ "\n".intercalate done.2 ++
                if maxResults ≤ done.2.length then
                  "\n... (已达到最大匹配数 " ++ toString maxResults ++ ")"
                else "")

/-! ## Writing -/

/-- What a file that is opened to be written holds; `none` where it cannot be opened. -/
def heldAt (place : Place) : Option (List UInt8) :=
  match t.node place with
  | none => some []
  | some (.file content) => some content
  | some _ => none

/-- The file is opened, which empties it unless the text is appended, and then written. -/
def writeAt (place : Place) (mode encoding text : String) : Option (Files × Bool) :=
  match t.find host.steps [] place.reverse with
  | none => none
  | some target =>
      (heldAt t target).map fun held =>
        let kept := if mode = "append" then held else []
        let bytes := host.encode encoding kept.isEmpty text
        (t.plant target (.file (kept ++ bytes.getD [])), bytes.isSome)

def fileWrite (path content mode encoding : String) : Files × Except String String :=
  match host.resolveSafePath t path with
  | .error raised => (t, .error raised)
  | .ok place =>
      if mode = "create" ∧ (t.stat host.steps place).isSome then
        (t, .ok ("错误: 文件 '" ++ path ++ "' 已存在，mode=create 不允许覆盖"))
      else
        match t.makeDirs place.tail with
        | none => (t, .error (host.osError place))
        | some made =>
            let action := if mode = "append" then "追加" else "写入"
            match host.writeAt made place mode encoding content with
            | some (written, true) =>
                (written, .ok ("成功" ++ action ++ "文件 '" ++ path ++ "'（" ++
                  toString content.toList.length ++ " 字符）"))
            | some (written, false) =>
                (written, .ok ("错误: 写入失败 - " ++ host.osError place))
            | none => (made, .ok ("错误: 写入失败 - " ++ host.osError place))

end Host

/-! ## Calls -/

inductive FileCall where
  | fileSearch (pattern : String) (recursive : Bool) (maxResults : Int)
  | fileRead (path encoding : String) (maxLines startLine : Int)
  | fileWrite (path content mode encoding : String)
  | listDirectory (path : String) (showHidden detail : Bool)
  | textSearch (pattern filePattern : String) (caseSensitive : Bool) (maxResults : Int)

namespace Host

/-- What a call leaves, and what it returns or raises. -/
def call (host : Host) (t : Files) : FileCall → Files × Except String String
  | .fileSearch pattern recursive maxResults => (t, host.fileSearch t pattern recursive maxResults)
  | .fileRead path encoding maxLines startLine =>
      (t, host.fileRead t path encoding maxLines startLine)
  | .fileWrite path content mode encoding => host.fileWrite t path content mode encoding
  | .listDirectory path showHidden detail => (t, host.listDirectory t path showHidden detail)
  | .textSearch pattern filePattern caseSensitive maxResults =>
      (t, host.textSearch t pattern filePattern caseSensitive maxResults)

def step (host : Host) (t : Files) (call : FileCall) : Files := (host.call t call).1

/-- What a call answers. -/
def answer (host : Host) (t : Files) (call : FileCall) : List (Except String String) :=
  [(host.call t call).2]

end Host

end YouMi.Tools
