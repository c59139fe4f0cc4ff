import AccessGateway.Wire.Cookie
import AccessGateway.Wire.Header

/-!
# Jars

A session keeps what backends and identity providers want to see again: cookies, ordered by the
path prefix they are meant for, and header fields, one value per name.  What is stored again moves
to the end of its place.
-/

set_option autoImplicit false

namespace AccessGateway

/-- Cookies under their path prefixes, in order of first insertion (`CookieBag`); a name occurs once
under each. -/
structure CookieJar where
  shelves : List (String × List (String × String))
deriving DecidableEq, Repr

namespace CookieJar

/-- The jar without cookies. -/
def empty : CookieJar := ⟨[]⟩

instance : Inhabited CookieJar := ⟨empty⟩

/-- The cookies of a prefix with one put at the end in place of its namesake. -/
def replace (name value : String) (cookies : List (String × String)) : List (String × String) :=
  cookies.filter (·.1 ≠ name) ++ [(name, value)]

/-- The shelves with a cookie put under a prefix. -/
def shelve (path name value : String) :
    List (String × List (String × String)) → List (String × List (String × String))
  | [] => [(path, [(name, value)])]
  | (p, cookies) :: rest =>
    if p = path then (p, replace name value cookies) :: rest
    else (p, cookies) :: shelve path name value rest

/-- Adds a cookie under a prefix, or replaces the one with its name there. -/
def insert (jar : CookieJar) (path name value : String) : CookieJar :=
  ⟨shelve path name value jar.shelves⟩

/-- The prefix that a cookie is stored under: its own path, unless that is empty. -/
def placeOf (root : String) (c : Cookie) : String :=
  match c.path with
  | some p => if p = "" then root else p
  | none => root

/-- Stores what a `Set-Cookie` field holds, with the name of the cookie; a field that is no cookie
changes nothing. -/
def store (jar : CookieJar) (root field : String) : CookieJar × Option String :=
  match Cookie.parse? field with
  | some c => (jar.insert (placeOf root c) c.name c.value, some c.name)
  | none => (jar, none)

/-- Stores the fields one after the other, with the number of cookies among them (`store_all`). -/
def storeAll (jar : CookieJar) (root : String) (fields : List String) : CookieJar × Nat :=
  fields.foldl (fun (jar, n) field =>
    match jar.store root field with
    | (jar, some _) => (jar, n + 1)
    | (jar, none) => (jar, n)) (jar, 0)

/-- The names and values to be sent with a path, in the order of the jar. -/
def cookiesFor (jar : CookieJar) (path : String) : List (String × String) :=
  (jar.shelves.filter fun (p, _) => p.toList.isPrefixOf path.toList).flatMap (·.2)

/-- The `Cookie` field to be sent with a path, if there is any cookie for it
(`cookie_header_for`). -/
def headerFor (jar : CookieJar) (path : String) : Option String :=
  match jar.cookiesFor path with
  | [] => none
  | cookies => some (Cookie.write cookies)

theorem headerFor_eq (jar : CookieJar) (path : String) :
    jar.headerFor path =
      if jar.cookiesFor path = [] then none else some (Cookie.write (jar.cookiesFor path)) := by
  unfold headerFor
  cases jar.cookiesFor path with
  | nil => rfl
  | cons p ps => exact (if_neg (List.cons_ne_nil p ps)).symm

/-- The number of cookies. -/
def size (jar : CookieJar) : Nat := (jar.shelves.flatMap (·.2)).length

end CookieJar

/-- Header fields, one value per name (`HeaderBag`). -/
structure HeaderJar where
  entries : List (HeaderName × HeaderValue)
deriving DecidableEq, Repr

namespace HeaderJar

/-- The jar without fields. -/
def empty : HeaderJar := ⟨[]⟩

instance : Inhabited HeaderJar := ⟨empty⟩

/-- Adds a field at the end in place of its namesake. -/
def store (jar : HeaderJar) (name : HeaderName) (value : HeaderValue) : HeaderJar :=
  ⟨jar.entries.filter (·.1 ≠ name) ++ [(name, value)]⟩

/-- The fields as a working set for one request (`headers_for_request`). -/
def working (jar : HeaderJar) : Headers :=
  jar.entries.foldl (fun h (name, value) => h.insert name value) .empty

/-- The number of fields. -/
def size (jar : HeaderJar) : Nat := jar.entries.length

end HeaderJar
end AccessGateway
