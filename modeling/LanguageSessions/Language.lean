import LanguageSessions.Json.Basic
import LanguageSessions.Path

/-!
# Languages and their servers

The table of known servers, one for each language, and what languages are found by: the extension of a file, the
identifier that an editor uses.
-/

namespace LanguageSessions

open Text

/-- A language server and how it is run. -/
structure Server where
  /-- The name that people know the server by. -/
  name : String
  /-- The identifier of the language in messages. -/
  languageId : String
  /-- The extensions of the files that the server handles, with their dots and in lower case. -/
  fileExtensions : List String
  /-- The program, with what always comes after it. -/
  command : List String
  arguments : List String
  /-- What the server is told as it starts. -/
  initializationOptions : Members
  /-- What the server is told once it runs. -/
  settings : Members
  /-- Names of the files that are found at the root of a project. -/
  rootPatterns : List String
  /-- The command that installs the server. -/
  installCommand : Option String

/-- The known servers by language, in the order in which they are asked. -/
abbrev Servers := List (String × Server)

namespace Servers

/-- The server of a language. -/
def get? (servers : Servers) (language : String) : Option Server :=
  (servers.find? fun entry => entry.1 == language).map Prod.snd

/-- Whether a language has a server. -/
def supports (servers : Servers) (language : String) : Bool := (servers.get? language).isSome

/-- The languages that have a server. -/
def languages (servers : Servers) : List String := servers.map Prod.fst

/-- The first language whose server handles an extension, given with or without its dot and in any case. -/
def languageOfExtension (servers : Servers) (extension : String) : Option String :=
  let dotted :=
    match extension.toList with
    | '.' :: rest => '.' :: rest
    | rest => '.' :: rest
  let wanted := String.ofList (lower dotted)
  (servers.find? fun entry => entry.2.fileExtensions.contains wanted).map Prod.fst

/-- The language of a file, by the suffix of its path. -/
def languageOfPath (servers : Servers) (path : String) : Option String :=
  match Path.suffix (Path.forwardSlashes path.toList) with
  | [] => none
  | suffix => servers.languageOfExtension (String.ofList suffix)

/-- A server that is told nothing as it starts. -/
def plain (name languageId : String) (fileExtensions command arguments rootPatterns : List String) (install : String) :
    String × Server :=
  (languageId, ⟨name, languageId, fileExtensions, command, arguments, [], [], rootPatterns, some install⟩)

/-- The servers known from the start. -/
def standard : Servers :=
  [plain "TypeScript Language Server" "typescript" [".ts", ".tsx"] ["typescript-language-server"] ["--stdio"]
     ["tsconfig.json", "package.json"] "npm install -g typescript-language-server typescript",
   plain "TypeScript Language Server (JavaScript)" "javascript" [".js", ".jsx", ".mjs", ".cjs"]
     ["typescript-language-server"] ["--stdio"] ["jsconfig.json", "package.json"]
     "npm install -g typescript-language-server typescript",
   plain "rust-analyzer" "rust" [".rs"] ["rust-analyzer"] [] ["Cargo.toml"] "rustup component add rust-analyzer",
   plain "Pyright" "python" [".py", ".pyi"] ["pyright-langserver"] ["--stdio"]
     ["pyproject.toml", "setup.py", "requirements.txt"] "pip install pyright",
   plain "gopls" "go" [".go"] ["gopls"] [] ["go.mod", "go.sum"] "go install golang.org/x/tools/gopls@latest",
   plain "clangd" "c" [".c", ".h"] ["clangd"] [] ["compile_commands.json", "CMakeLists.txt", "Makefile"]
     "brew install llvm",
   plain "clangd" "cpp" [".cpp", ".cc", ".cxx", ".hpp", ".hh", ".hxx"] ["clangd"] []
     ["compile_commands.json", "CMakeLists.txt", "Makefile"] "brew install llvm"]

end Servers

namespace Language

/-- The language whose server serves an editor's language. -/
def ofEditor : String → Option String
  | "typescript" | "typescriptreact" => some "typescript"
  | "javascript" | "javascriptreact" => some "javascript"
  | "rust" => some "rust"
  | "python" => some "python"
  | "go" => some "go"
  | "c" => some "c"
  | "cpp" => some "cpp"
  | _ => none

/-- A language's name as people write it. -/
def displayName : String → String
  | "typescript" => "TypeScript"
  | "javascript" => "JavaScript"
  | "typescriptreact" => "TypeScript React"
  | "javascriptreact" => "JavaScript React"
  | "rust" => "Rust"
  | "python" => "Python"
  | "go" => "Go"
  | "c" => "C"
  | "cpp" => "C++"
  | language => language

end Language

end LanguageSessions
