import VizGateway.Json
import VizGateway.Lib.PosixPath
import VizGateway.Lib.Utf8

/-!
# Static files

The coordinator serves the files of one directory. Which file a request means is worked out from
the URL's text alone; the process reads its secrets from the same file system.
-/

namespace VizGateway

open PosixPath Text

/-! ## `decodeURIComponent` -/

/-- A character as it stands, or a byte in hexadecimal behind a percent sign. -/
inductive UriToken
  | char (c : Char)
  | byte (b : UInt8)

def hexValue (c : Char) : Option ℕ := if digitValue c < 16 then some (digitValue c) else none

def uriTokens : List Char → Option (List UriToken)
  | [] => some []
  | '%' :: a :: b :: rest => do
    let hi ← hexValue a
    let lo ← hexValue b
    let tokens ← uriTokens rest
    return .byte (UInt8.ofNat (16 * hi + lo)) :: tokens
  | '%' :: _ => none
  | c :: rest => (uriTokens rest).map (.char c :: ·)

/-- Escaped bytes have to be whole characters of UTF-8. -/
def decodeTokens : Option Utf8.Pending → List UriToken → Option (List Char)
  | none, [] => some []
  | none, .char c :: ts => (decodeTokens none ts).map (c :: ·)
  | none, .byte b :: ts =>
    if b.toNat < 0x80 ∨ (Utf8.lead b).2.isSome then
      (decodeTokens (Utf8.lead b).2 ts).map ((Utf8.lead b).1 ++ ·)
    else none
  | some q, .byte b :: ts =>
    if q.Takes b then
      (decodeTokens (Utf8.next (some q) b).2 ts).map ((Utf8.next (some q) b).1 ++ ·)
    else none
  | some _, _ => none

/-- `none` when it throws. -/
def decodeURIComponent (s : String) : Option String :=
  ((uriTokens s.toList).bind (decodeTokens none)).map String.ofList

example : decodeURIComponent "/a%2Fb%C3%A9" = some "/a/bé" := by decide

example : decodeURIComponent "%C0%AE" = none := by decide

/-! ## Content types -/

def CONTENT_TYPES : List (String × String) := [
  (".html", "text/html; charset=utf-8"),
  (".js", "text/javascript; charset=utf-8"),
  (".mjs", "text/javascript; charset=utf-8"),
  (".css", "text/css; charset=utf-8"),
  (".json", "application/json; charset=utf-8"),
  (".png", "image/png"),
  (".svg", "image/svg+xml"),
  (".ico", "image/x-icon")]

def contentTypeFor (filePath : String) : String :=
  (CONTENT_TYPES.lookup (toLowerCase (extname filePath))).getD "application/octet-stream"

/-! ## Requests -/

structure StaticFile where
  absPath : String
  contentType : String
  deriving DecidableEq, Repr

/-- `clean.replace(/^\/+/, "")`. -/
def dropSlashes (s : String) : String := String.ofList (s.toList.dropWhile (· = '/'))

/-- `none` for `{ forbidden: true }`. -/
def resolveStaticPath (cwd : WorkingDir) (urlPath root : String) : Option StaticFile :=
  let rootAbs := resolve cwd root
  match decodeURIComponent (beforeChar urlPath '?') with
  | none => none
  | some decoded =>
    if ".." ∈ split decoded '/' then none
    else
      let clean := normalize decoded
      let rel := if clean = "/" ∨ clean = "" then "index.html" else dropSlashes clean
      let absPath := join [rootAbs, rel]
      if absPath ≠ rootAbs ∧ startsWith absPath (rootAbs ++ "/") = false then none
      else some { absPath, contentType := contentTypeFor absPath }

structure StaticRequest where
  url : Option String
  method : String

inductive StaticBody
  | text (s : String)
  | file (bytes : List UInt8)
  | empty
  deriving DecidableEq, Repr

structure StaticResponse where
  status : ℕ
  contentType : String
  cacheControl : Option String
  body : StaticBody
  deriving DecidableEq, Repr

/-- The response, with `readFile` giving `none` when it throws. -/
def serveStatic (readFile : String → Option (List UInt8)) (cwd : WorkingDir) (req : StaticRequest)
    (root : String) : StaticResponse :=
  match resolveStaticPath cwd (req.url.getD "/") root with
  | none => ⟨403, "text/plain", none, .text "forbidden"⟩
  | some r =>
    match readFile r.absPath with
    | none => ⟨404, "text/plain", none, .text "not found"⟩
    | some body =>
      let cache := if startsWith r.contentType "text/html" then "no-cache" else "max-age=300"
      ⟨200, r.contentType, some cache, if req.method = "HEAD" then .empty else .file body⟩

end VizGateway
