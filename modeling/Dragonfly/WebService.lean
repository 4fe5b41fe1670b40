import Dragonfly.Config
import Dragonfly.PathResolution

/-!
# `ServeJsonFile`

The handler of the static web server takes a request whose method is `GET` and whose
URL begins with the document root, and opens what follows the first character of the
URL, a path below the working directory. Whether the file is there and can be opened
is the answer of the file system, whatever it is.

A URL is the decoded byte string that the server library hands over. Names of the
file system are byte strings; symbolic links are left out, as the headers and the
body of the response are.
-/

namespace Dragonfly.WebService

open Config

/-- A URL as the server library hands it over: a C string, with no zero byte in it. -/
structure Url where
  bytes : List Byte
  string : 0 ∉ bytes
deriving DecidableEq

/-- The constant `WEB_DIR`, with which the URL of a request must begin. -/
def webDir : List Byte := bytesOf "/www/"

/-- The constant `MHD_HTTP_METHOD_GET`, the only method that is served. -/
def methodGet : List Byte := bytesOf "GET"

/-- The call of `strncmp` finds no difference between two C strings in their first bytes. -/
def sameFront (left right : List Byte) (count : Nat) : Prop :=
  (cString left).take count = (cString right).take count

instance (left right : List Byte) (count : Nat) : Decidable (sameFront left right count) :=
  inferInstanceAs (Decidable (_ = _))

/-- What a call of the handler does: it refuses the request, asks to be called again,
answers that there is no file, or opens a file and sends it. -/
inductive Reply where
  | no
  | yes
  | notFound
  | serve (path : List Byte)
deriving DecidableEq

/-- `ServeJsonFile`, with what `stat` and `fopen` answer for a path. The pointer of the
request remembers whether it was seen before. -/
def serveJsonFile (stat fopen : List Byte → Bool) (documentRoot url method : List Byte)
    (seen : Bool) : Reply × Bool :=
  if method ≠ methodGet then (.no, seen)
  else if ¬ sameFront documentRoot url (min 32 (cString documentRoot).length) then (.no, seen)
  else if ¬ seen then (.yes, true)
  else
    let path := (cString url).drop 1
    if stat path ∧ fopen path then (.serve path, false) else (.notFound, false)

/-- The component that a piece of a path between two slashes names: a dot is the directory
itself, and two dots are its parent. -/
def component (piece : List Byte) : Component (List Byte) :=
  if piece = [] ∨ piece = bytesOf "." then .current
  else if piece = bytesOf ".." then .parent
  else .child piece

/-- The components of a path are the pieces between its slashes, as the file system resolves
them one after the other. -/
def components (path : List Byte) : List (Component (List Byte)) :=
  (path.splitOn 47).map component

/-- The names a path leads to from a working directory. -/
def locate (workingDirectory : List (List Byte)) (path : List Byte) : List (List Byte) :=
  Component.resolve (if path.head? = some 47 then [] else workingDirectory) (components path)

/-- The directory `www` under the working directory, to which a request is to be confined. -/
def www (workingDirectory : List (List Byte)) : List (List Byte) :=
  workingDirectory ++ [bytesOf "www"]

/-- Whatever the file system answers, the file a `GET` request opens lies inside the
`www` directory. -/
def Contained (workingDirectory : List (List Byte)) (url : Url) : Prop :=
  ∀ stat fopen seen path,
    (serveJsonFile stat fopen webDir url.bytes methodGet seen).1 = .serve path →
    www workingDirectory <+: locate workingDirectory path

/-- The URL is refused, or the names behind `/www/` begin with those its parents climb
over. -/
def Confined (workingDirectory : List (List Byte)) (url : Url) : Prop :=
  webDir <+: url.bytes →
    Component.Returns (www workingDirectory)
      (Component.reduce (components (url.bytes.drop webDir.length)))

/-- A request that is served has a URL below the document root, and the path opened is
the URL without its first character. -/
theorem served_path {stat fopen : List Byte → Bool} {url : Url} {seen : Bool} {path : List Byte}
    (served : (serveJsonFile stat fopen webDir url.bytes methodGet seen).1 = .serve path) :
    webDir <+: url.bytes ∧ path = url.bytes.drop 1 := by
  have string := cString_whole url.bytes url.string
  unfold serveJsonFile at served
  split at served
  · cases served
  · split at served
    · cases served
    · rename_i front
      have same := not_not.mp front
      have root : cString webDir = webDir := by decide
      have whole : min 32 webDir.length = webDir.length := by decide
      rw [sameFront, root, string, whole, List.take_length] at same
      split at served
      · cases served
      · dsimp only at served
        split at served
        · cases served
          rw [string]
          exact ⟨List.prefix_iff_eq_take.mpr same, rfl⟩
        · cases served

/-- A URL below the document root is served the second time when the file is there. -/
theorem request_served {url : Url} (below : webDir <+: url.bytes) :
    (serveJsonFile (fun _ => true) (fun _ => true) webDir url.bytes methodGet true).1 =
      .serve (url.bytes.drop 1) := by
  have string := cString_whole url.bytes url.string
  have root : cString webDir = webDir := by decide
  have whole : min 32 webDir.length = webDir.length := by decide
  have same : sameFront webDir url.bytes (min 32 (cString webDir).length) := by
    rw [sameFront, root, string, whole, List.take_length]
    exact List.prefix_iff_eq_take.mp below
  simp [serveJsonFile, same, string]

/-- What is behind `/www/` is resolved from the `www` directory. -/
theorem locate_below (workingDirectory : List (List Byte)) (rest : List Byte) :
    locate workingDirectory ((webDir ++ rest).drop 1) =
      Component.resolve (www workingDirectory) (components rest) := by
  have path : (webDir ++ rest).drop 1 = bytesOf "www" ++ 47 :: rest := rfl
  have pieces : (bytesOf "www" ++ 47 :: rest).splitOn 47 = bytesOf "www" :: rest.splitOn 47 := by
    rw [List.splitOn_append_cons_of_beq _ _ (by decide), List.splitOn_eq_singleton (by decide)]
    rfl
  rw [path, locate, components, pieces]
  rfl

/-- The file a `GET` request opens lies inside the `www` directory exactly when the URL
is confined. -/
theorem contained_iff (workingDirectory : List (List Byte)) (url : Url) :
    Contained workingDirectory url ↔ Confined workingDirectory url := by
  constructor
  · intro contained below
    have inside := contained _ _ _ _ (request_served below)
    obtain ⟨rest, whole⟩ := below
    rw [← whole, locate_below, Component.inside_iff] at inside
    rw [← whole, List.drop_left]
    exact inside
  · intro confined stat fopen seen path served
    obtain ⟨below, rfl⟩ := served_path served
    have returns := confined below
    obtain ⟨rest, whole⟩ := below
    rw [← whole, List.drop_left] at returns
    rw [← whole, locate_below, Component.inside_iff]
    exact returns

/-- A request for `/www/../../etc/passwd` opens `/etc/passwd`, when the server runs in `/opt`. -/
theorem parents_escape :
    ¬ ∀ workingDirectory url, Contained workingDirectory url := by
  intro claimed
  have contained := claimed [bytesOf "opt"] ⟨bytesOf "/www/../../etc/passwd", by decide⟩
  have inside := contained _ _ _ _ (request_served (by decide))
  exact absurd inside (by decide)

end Dragonfly.WebService
