import ShapeTypes.Rdf.Term
import ShapeTypes.Text.Hex

/-!
# IRI references

* `IriReference` — the five parts of a reference; `IriReference.ofChars` splits a text into them, and
  `IriReference.chars` joins them again, without loss (`chars_ofChars`);
* `IriReference.isValid` — whether every part has only the characters it may have;
* `IriReference.resolve?` — the reference that another one stands for relative to a base;
* `resolveIri?` — the IRI that a text stands for: verbatim without a base, resolved with one.
-/

namespace ShapeTypes.Rdf

open Text

/-- The parts of an IRI reference, without the characters that set them apart. -/
structure IriReference where
  scheme : Option (List Char) := none
  authority : Option (List Char) := none
  path : List Char := []
  query : Option (List Char) := none
  fragment : Option (List Char) := none
  deriving DecidableEq

namespace IriReference

/-! ## Parts -/

/-- Whether a character may stand in a scheme after its first letter. -/
def isSchemeChar (c : Char) : Bool := c.isAlphanum || c == '+' || c == '-' || c == '.'

/-- The scheme before the first colon and what follows that colon, if the text begins with a scheme. -/
def splitScheme? (cs : List Char) : Option (List Char × List Char) :=
  match cs.head?, cs.dropWhile isSchemeChar with
  | some c, ':' :: rest => if c.isAlpha then some (cs.takeWhile isSchemeChar, rest) else none
  | _, _ => none

/-- What precedes the first of a character, and what follows it if it occurs. -/
def cutAt (mark : Char) (cs : List Char) : List Char × Option (List Char) :=
  match cs.dropWhile (· ≠ mark) with
  | [] => (cs, none)
  | _ :: rest => (cs.takeWhile (· ≠ mark), some rest)

theorem cutAt_some {mark : Char} {cs before after : List Char} (h : cutAt mark cs = (before, some after)) :
    cs = before ++ mark :: after := by
  unfold cutAt at h
  split at h
  · cases h
  · rename_i c rest hd
    have hc : c = mark := by
      have hhead := List.head?_dropWhile_not (· ≠ mark) cs
      rw [hd] at hhead
      simpa using hhead
    subst hc
    cases h
    rw [← hd, List.takeWhile_append_dropWhile]

theorem cutAt_none {mark : Char} {cs before : List Char} (h : cutAt mark cs = (before, none)) :
    cs = before := by
  unfold cutAt at h
  split at h
  · cases h; rfl
  · cases h

/-- The authority and the path of what stands before the query. -/
def splitAuthority : List Char → Option (List Char) × List Char
  | '/' :: '/' :: rest => (some (rest.takeWhile (· ≠ '/')), rest.dropWhile (· ≠ '/'))
  | cs => (none, cs)

/-- The parts of a text. -/
def ofChars (cs : List Char) : IriReference :=
  let (scheme, rest) := match splitScheme? cs with
    | some (scheme, rest) => (some scheme, rest)
    | none => (none, cs)
  let (rest, fragment) := cutAt '#' rest
  let (rest, query) := cutAt '?' rest
  let (authority, path) := splitAuthority rest
  { scheme, authority, path, query, fragment }

/-- The characters of an optional part with what sets it apart. -/
def partChars (before after : List Char) : Option (List Char) → List Char
  | some cs => before ++ cs ++ after
  | none => []

/-- The text of the parts. -/
def chars (r : IriReference) : List Char :=
  partChars [] [':'] r.scheme ++ partChars ['/', '/'] [] r.authority ++ r.path ++
    partChars ['?'] [] r.query ++ partChars ['#'] [] r.fragment

theorem splitScheme?_some {cs scheme rest : List Char} (h : splitScheme? cs = some (scheme, rest)) :
    cs = scheme ++ ':' :: rest := by
  unfold splitScheme? at h
  split at h
  · rename_i c after _ hd
    split at h
    · cases h
      rw [← hd, List.takeWhile_append_dropWhile]
    · cases h
  · cases h

theorem partChars_splitAuthority (cs : List Char) :
    partChars ['/', '/'] [] (splitAuthority cs).1 ++ (splitAuthority cs).2 = cs := by
  unfold splitAuthority
  split
  · simp [partChars, List.takeWhile_append_dropWhile]
  · rfl

/-- Splitting loses nothing: the parts of a text make that text. -/
theorem chars_ofChars (cs : List Char) : (ofChars cs).chars = cs := by
  have hmark (mark : Char) (ds : List Char) :
      (cutAt mark ds).1 ++ partChars [mark] [] (cutAt mark ds).2 = ds := by
    rcases hd : cutAt mark ds with ⟨before, _ | after⟩
    · simpa [partChars] using (cutAt_none hd).symm
    · simpa [partChars] using (cutAt_some hd).symm
  have hbody (ds : List Char) :
      partChars ['/', '/'] [] (splitAuthority (cutAt '?' (cutAt '#' ds).1).1).1 ++
        (splitAuthority (cutAt '?' (cutAt '#' ds).1).1).2 ++
        partChars ['?'] [] (cutAt '?' (cutAt '#' ds).1).2 ++ partChars ['#'] [] (cutAt '#' ds).2 = ds := by
    rw [partChars_splitAuthority, hmark, hmark]
  unfold ofChars chars
  rcases hs : splitScheme? cs with _ | ⟨scheme, rest⟩
  · simpa [partChars] using hbody cs
  · have hcs := splitScheme?_some hs
    have hrest := hbody rest
    simp only [List.append_assoc] at hrest ⊢
    rw [hrest, hcs]
    simp [partChars]

/-! ## Characters -/

/-- The characters beyond ASCII that may stand in every part. -/
def isInternational (c : Char) : Bool :=
  let n := c.toNat
  (0xa0 ≤ n && n ≤ 0xd7ff) || (0xf900 ≤ n && n ≤ 0xfdcf) || (0xfdf0 ≤ n && n ≤ 0xffef) ||
    (0x10000 ≤ n && n ≤ 0xdffff && n % 0x10000 ≤ 0xfffd) || (0xe1000 ≤ n && n ≤ 0xefffd)

/-- The private characters, which may stand in a query only. -/
def isPrivate (c : Char) : Bool :=
  let n := c.toNat
  (0xe000 ≤ n && n ≤ 0xf8ff) || (0xf0000 ≤ n && n ≤ 0xffffd) || (0x100000 ≤ n && n ≤ 0x10fffd)

/-- The characters that stand for themselves in every part but the scheme. -/
def isPlain (c : Char) : Bool :=
  c.isAlphanum || isInternational c || "-._~!$&'()*+,;=".toList.contains c

def isPathChar (c : Char) : Bool := isPlain c || c == ':' || c == '@' || c == '/'

def isQueryChar (c : Char) : Bool := isPathChar c || c == '?' || isPrivate c

def isFragmentChar (c : Char) : Bool := isPathChar c || c == '?'

/-- Whether all characters are allowed, percent signs before two hexadecimal digits set aside. -/
def allowed (ok : Char → Bool) : List Char → Bool
  | [] => true
  | c :: rest =>
    if c = '%' then
      match rest with
      | a :: b :: rest => (hexValue? a).isSome && (hexValue? b).isSome && allowed ok rest
      | _ => false
    else ok c && allowed ok rest

/-! ## Hosts -/

/-- Whether a text is a number from 0 to 255 without leading zeros. -/
def isOctet (cs : List Char) : Bool :=
  !cs.isEmpty && cs.length ≤ 3 && cs.all Char.isDigit && (cs.length = 1 || cs.head? ≠ some '0') &&
    cs.foldl (fun n c => n * 10 + (c.toNat - 48)) 0 ≤ 255

/-- Whether a text is four octets with dots between them. -/
def isIpv4 (cs : List Char) : Bool :=
  let octets := cs.splitOn '.'
  octets.length = 4 && octets.all isOctet

/-- Whether a text is a group of one to four hexadecimal digits. -/
def isHexGroup (cs : List Char) : Bool :=
  !cs.isEmpty && cs.length ≤ 4 && cs.all fun c => (hexValue? c).isSome

/-- The number of groups in a text with colons between them; an address of four octets, which can only come
last and only where it is allowed, counts as two. None if one is ill-formed. -/
def groupCount? (octetsAllowed : Bool) : List (List Char) → Option Nat
  | [] => some 0
  | [last] =>
    if isHexGroup last then some 1 else if octetsAllowed && isIpv4 last then some 2 else none
  | g :: rest => if isHexGroup g then (groupCount? octetsAllowed rest).map (· + 1) else none

/-- The groups of one side of an address. -/
def groupsOf (cs : List Char) : List (List Char) := if cs.isEmpty then [] else cs.splitOn ':'

/-- What precedes and what follows the first double colon. -/
def cutAtDoubleColon? : List Char → Option (List Char × List Char)
  | [] => none
  | ':' :: ':' :: rest => some ([], rest)
  | c :: rest => (cutAtDoubleColon? rest).map fun (before, after) => (c :: before, after)

/-- Whether a text is an address of eight groups, or of fewer around one double colon. -/
def isIpv6 (cs : List Char) : Bool :=
  match cutAtDoubleColon? cs with
  | none => groupCount? true (groupsOf cs) == some 8
  | some (before, after) =>
    match groupCount? false (groupsOf before), groupCount? true (groupsOf after) with
    | some m, some n => m + n < 8
    | _, _ => false

/-- Whether a text is an address of a later version: `v`, its number, a dot, and the address. -/
def isIpFuture (cs : List Char) : Bool :=
  match cs with
  | v :: rest =>
    (v == 'v' || v == 'V') &&
      match cutAt '.' rest with
      | (version, some address) =>
        !version.isEmpty && version.all (fun c => (hexValue? c).isSome) && !address.isEmpty &&
          address.all fun c => (isPlain c && !isInternational c) || c == ':'
      | (_, none) => false
  | [] => false

/-- Whether a text is the number after a host: digits, or none. -/
def isHostNumber (cs : List Char) : Bool := cs.all Char.isDigit

/-- Whether a text is a host, with an optional number after a colon. -/
def isNumberedHost (cs : List Char) : Bool :=
  match cs with
  | '[' :: rest =>
    match cutAt ']' rest with
    | (address, some after) =>
      (isIpv6 address || isIpFuture address) &&
        match after with
        | [] => true
        | ':' :: number => isHostNumber number
        | _ => false
    | (_, none) => false
  | _ =>
    match cutAt ':' cs with
    | (host, number) => allowed isPlain host && number.all isHostNumber

/-- Whether a text is an authority: an optional user, and a host with an optional number. -/
def isAuthority (cs : List Char) : Bool :=
  match cutAt '@' cs with
  | (user, some rest) => allowed (fun c => isPlain c || c == ':') user && isNumberedHost rest
  | (_, none) => isNumberedHost cs

/-! ## Validity -/

/-- Whether a path cannot be mistaken for an authority or a scheme. -/
def isPathPlaced (r : IriReference) : Bool :=
  match r.authority with
  | some _ => r.path.isEmpty || r.path.head? == some '/'
  | none =>
    r.path.take 2 ≠ ['/', '/'] && (r.scheme.isSome || !(r.path.takeWhile (· ≠ '/')).contains ':')

def isValid (r : IriReference) : Bool :=
  r.authority.all isAuthority && allowed isPathChar r.path && r.isPathPlaced &&
    r.query.all (allowed isQueryChar) && r.fragment.all (allowed isFragmentChar)

/-! ## Resolution -/

def segments (path : List Char) : List (List Char) := path.splitOn '/'

def ofSegments (segments : List (List Char)) : List Char := ['/'].intercalate segments

/-- The segments above some, both held last first. In a rooted path the empty segment before the first slash
has none above it and stays. -/
def parent (rooted : Bool) (kept : List (List Char)) : List (List Char) :=
  if rooted && kept.length ≤ 1 then kept else kept.tail

/-- The segments reached by going along others from those kept, which are held last first. A single dot stays
where it is, two dots go up, and either at the end leaves an empty segment. No place on the way may begin with
two slashes unless the path is rooted, for an authority would begin there; two dots may leave such a place. -/
def walk? (rooted : Bool) (kept : List (List Char)) : List (List Char) → Option (List (List Char))
  | [] => some kept.reverse
  | segment :: rest =>
    let above := if segment = ['.', '.'] then parent rooted kept else kept
    if !rooted && above = [[], []] then none
    else if segment = ['.'] || segment = ['.', '.'] then
      walk? rooted (if rest.isEmpty then [] :: above else above) rest
    else walk? rooted (segment :: above) rest

/-- Where the relative paths of a base begin: at the segments of its path but the last, as they are written,
last first. -/
def directory (base : IriReference) : List (List Char) :=
  if base.authority.isSome && base.path.isEmpty then [[]] else (segments base.path).reverse.tail

/-- The path and the query of a reference without scheme and authority. -/
def resolvePath? (base r : IriReference) : Option (List Char × Option (List Char)) :=
  let reached (kept : List (List Char)) :=
    (walk? base.authority.isSome kept (segments r.path)).map fun path => (ofSegments path, r.query)
  match r.path with
  | [] => some (base.path, r.query <|> base.query)
  | '/' :: _ => reached []
  | _ => reached base.directory

/-- What a reference stands for relative to a base. One with a scheme or an authority keeps its path as it is
written. -/
def resolve? (base r : IriReference) : Option IriReference :=
  if r.scheme.isSome then some r
  else if r.authority.isSome then some { r with scheme := base.scheme }
  else
    (resolvePath? base r).map fun (path, query) =>
      { scheme := base.scheme, authority := base.authority, path, query, fragment := r.fragment }

end IriReference

/-- The IRI of a text that begins with a scheme, kept as it is. -/
def absoluteIri? (cs : List Char) : Option Iri :=
  let r := IriReference.ofChars cs
  if r.scheme.isSome && r.isValid then some ⟨String.ofList cs⟩ else none

/-- The IRI that a text stands for, relative to a base if there is one. -/
def resolveIri? (base : Option IriReference) (cs : List Char) : Option Iri :=
  match base with
  | none => absoluteIri? cs
  | some base =>
    let r := IriReference.ofChars cs
    match base.resolve? r with
    | some resolved =>
      if r.isValid && resolved.isValid then some ⟨String.ofList resolved.chars⟩ else none
    | none => none

end ShapeTypes.Rdf
