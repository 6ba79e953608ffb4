import Mathlib.Data.List.TakeWhile
import Lazyd.Remote.Challenge

/-!
# Image references

How the daemon takes an image reference apart, and what the URL of a blob is. URLs are parsed by the
`url` crate, which is not part of the daemon; for a registry, a `hosts.toml` can name a server to be
used in its place.

A reference can have both a tag and a digest. The tag then stays in the repository, since the
reference is only split at the `@`; in every other case the parts come out as they were written.

## Main definitions

* `Oci.UrlCrate`, `Oci.HostsFiles` : what the daemon uses of the crate and of the host files.
* `Oci.parseImageRef`, `Oci.buildBlobUrl`.
* `Oci.ImageRef` : a reference with its optional parts, `Oci.ImageRef.text`, how it is written, and
  `Oci.ImageRef.parsed`, what it means.
* `Oci.UrlCrate.LeavesUnchanged` : what is assumed of the crate.

## Main results

* `Oci.parseImageRef_text` : what a reference is parsed to.
* `Oci.image_ref_components_iff` : the parts are those of the reference, and the URL of a blob is
  made from them, if and only if the reference does not have both a tag and a digest.

Source: `src/remote/oci.rs`, lines 416–430 and 485–551.
-/

namespace Lazyd

namespace Oci

/-! ### The URL of a blob -/

/-- What the daemon uses of the `url` crate. -/
structure UrlCrate where
  Url : Type
  /-- `Url::parse`, with the error in words -/
  parse : String → Except String Url
  scheme : Url → String
  hostStr : Url → Option String
  /-- `Url::port`, which is there unless it is the default port of the scheme -/
  port : Url → Option UInt16
  path : Url → String
  setPath : Url → String → Url
  /-- `Url::as_str` -/
  asStr : Url → String

/-- The `hosts.toml` files. -/
structure HostsFiles where
  /-- what is read of the file for a registry in a hosts directory, if there is one -/
  read : String → String → Option (Except IoError String)
  /-- the string with the key `server` in the text of a file, if there is one -/
  server : String → Except String (Option String)

/-- `str::rsplit_once` on a character. -/
def rsplitOnce (sep : Char) (input : List Char) : Option (List Char × List Char) :=
  (splitOnce sep input.reverse).map fun parts => (parts.2.reverse, parts.1.reverse)

/-- `ParsedImageRef` -/
structure ParsedImageRef where
  scheme : String
  registry : String
  authority : String
  repository : String
  reference : String
  deriving DecidableEq, Repr

/-- `ParsedImageRef::default_base_url` -/
def ParsedImageRef.defaultBaseUrl (parsed : ParsedImageRef) : String :=
  parsed.scheme ++ "://" ++ parsed.authority

/-- The repository and the reference in a path without slashes at its start. -/
def splitReference (repository : List Char) : List Char × List Char :=
  match rsplitOnce '@' repository with
  | some (repo, digest) => (repo, digest)
  | none =>
    match rsplitOnce ':' repository with
    | some (repo, tag) => (repo, tag)
    | none => (repository, "latest".toList)

/-- A reference with a scheme. -/
def withScheme (imageRef : String) : String :=
  if "http://".toList <+: imageRef.toList ∨ "https://".toList <+: imageRef.toList then imageRef
  else "https://" ++ imageRef

/-- `parse_image_ref` -/
def parseImageRef (crate : UrlCrate) (imageRef : String) : Except Error ParsedImageRef :=
  match crate.parse (withScheme imageRef) with
  | .error err => .error (.badRequest err)
  | .ok url =>
    match crate.hostStr url with
    | none => .error (.badRequest "image_ref missing registry host")
    | some registry =>
      let authority := match crate.port url with
        | some port => registry ++ ":" ++ toString port.toNat
        | none => registry
      let repository := (crate.path url).toList.dropWhile (· = '/')
      if repository = [] then .error (.badRequest "image_ref missing repository")
      else
        .ok {
          scheme := crate.scheme url
          registry
          authority
          repository := String.ofList (splitReference repository).1
          reference := String.ofList (splitReference repository).2 }

/-- `read_hosts_server` -/
def readHostsServer (hosts : HostsFiles) (hostsDir registry : String) :
    Except Error (Option String) :=
  match hosts.read hostsDir registry with
  | none => .ok none
  | some (.error err) => .error (.io err)
  | some (.ok content) =>
    match hosts.server content with
    | .error err => .error (.badRequest err)
    | .ok server => .ok server

/-- The server that is used in place of a registry. -/
def hostsServer (hosts : HostsFiles) (hostsDir : Option String) (registry : String) :
    Except Error (Option String) :=
  match hostsDir with
  | none => .ok none
  | some dir => readHostsServer hosts dir registry

/-- `build_blob_url` -/
def buildBlobUrl (crate : UrlCrate) (hosts : HostsFiles) (imageRef : String)
    (hostsDir : Option String) (digest : String) : Except Error crate.Url := do
  let parsed ← parseImageRef crate imageRef
  let server ← hostsServer hosts hostsDir parsed.registry
  match crate.parse (server.getD parsed.defaultBaseUrl) with
  | .error err => .error (.badRequest err)
  | .ok url =>
    let path := ((crate.path url).toList.reverse.dropWhile (· = '/')).reverse
    .ok (crate.setPath url
      (String.ofList path ++ "/v2/" ++ parsed.repository ++ "/blobs/" ++ digest))

/-! ### Splitting -/

theorem rsplitOnce_append_cons {sep : Char} {after : List Char} (h : sep ∉ after)
    (before : List Char) : rsplitOnce sep (before ++ sep :: after) = some (before, after) := by
  have hreverse : (before ++ sep :: after).reverse = after.reverse ++ sep :: before.reverse := by
    rw [List.reverse_append, List.reverse_cons, List.append_assoc, List.singleton_append]
  have hsplit := splitOnce_append_cons (fun hmem => h (List.mem_reverse.mp hmem)) before.reverse
  rw [rsplitOnce, hreverse, hsplit, Option.map_some, List.reverse_reverse, List.reverse_reverse]

theorem rsplitOnce_eq_none {sep : Char} {input : List Char} (h : sep ∉ input) :
    rsplitOnce sep input = none := by
  rw [rsplitOnce, splitOnce_eq_none fun hmem => h (List.mem_reverse.mp hmem), Option.map_none]

/-! ### References -/

inductive Scheme where
  | http
  | https
  deriving DecidableEq, Repr

namespace Scheme

def text : Scheme → List Char
  | http => "http".toList
  | https => "https".toList

def defaultPort : Scheme → UInt16
  | http => 80
  | https => 443

end Scheme

/-- A nonempty text of certain characters. -/
abbrev Word (p : Char → Bool) : Type := {text : List Char // text ≠ [] ∧ text.all p = true}

/-- The characters of a DNS name in lower case. -/
def hostChar (c : Char) : Bool := c.isLower || c.isDigit || c ∈ ['.', '-']

/-- The characters of a component of a repository name. -/
def nameChar (c : Char) : Bool := c.isLower || c.isDigit || c ∈ ['.', '_', '-']

/-- The characters of a tag. -/
def tagChar (c : Char) : Bool := c.isAlphanum || c ∈ ['.', '_', '-']

/-- The characters of a digest algorithm. -/
def algorithmChar (c : Char) : Bool := c.isLower || c.isDigit || c ∈ ['+', '.', '_', '-']

def hexChar (c : Char) : Bool := c.isDigit || ('a' ≤ c && c ≤ 'f')

structure Digest where
  algorithm : Word algorithmChar
  hex : Word hexChar

def Digest.text (digest : Digest) : List Char := digest.algorithm ++ ':' :: digest.hex

/-- An image reference. The words are those of the grammar; which of them begin or end with a
separator does not matter. -/
structure ImageRef where
  scheme : Option Scheme
  host : Word hostChar
  port : Option UInt16
  component : Word nameChar
  components : List (Word nameChar)
  tag : Option (Word tagChar)
  digest : Option Digest

/-- A port as it is written after a host. -/
def portText : Option UInt16 → List Char
  | none => []
  | some port => ':' :: (toString port.toNat).toList

/-- A URL as it is written. -/
def urlText (scheme : Scheme) (host : List Char) (port : Option UInt16) (path : List Char) :
    List Char :=
  scheme.text ++ "://".toList ++ (host ++ (portText port ++ path))

namespace ImageRef

variable (r : ImageRef)

/-- The scheme of the registry. -/
def urlScheme : Scheme := r.scheme.getD .https

/-- The port, unless it is the default port. -/
def urlPort : Option UInt16 := r.port.filter (· ≠ r.urlScheme.defaultPort)

def repo : List Char :=
  r.component ++ r.components.flatMap fun component : Word nameChar => '/' :: component.1

def tagText : List Char :=
  match r.tag with
  | none => []
  | some tag => ':' :: tag

def digestText : List Char :=
  match r.digest with
  | none => []
  | some digest => '@' :: digest.text

/-- The path of the reference as a URL. -/
def path : List Char := '/' :: (r.repo ++ (r.tagText ++ r.digestText))

/-- A reference as it is written. -/
def text : List Char :=
  match r.scheme with
  | none => r.host ++ (portText r.port ++ r.path)
  | some scheme => urlText scheme r.host r.port r.path

/-- The digest, or else the tag, or else `latest`. -/
def reference : List Char :=
  match r.digest, r.tag with
  | some digest, _ => digest.text
  | none, some tag => tag
  | none, none => "latest".toList

/-- What a reference means. -/
def parsed : ParsedImageRef where
  scheme := String.ofList r.urlScheme.text
  registry := String.ofList r.host
  authority := String.ofList (r.host ++ portText r.urlPort)
  repository := String.ofList r.repo
  reference := String.ofList r.reference

/-- The path of a blob of the reference. -/
def blobPath (blob : Digest) : List Char :=
  "/v2/".toList ++ (r.repo ++ ("/blobs/".toList ++ blob.text))

end ImageRef

/-- The crate parses a URL with the host and the path left as they are. Without a path, it has the
path `/`. -/
def UrlCrate.Parses (crate : UrlCrate) (scheme : Scheme) (host : List Char)
    (port : Option UInt16) (path : List Char) : Prop :=
  ∃ url, crate.parse (String.ofList (urlText scheme host port path)) = .ok url ∧
    crate.scheme url = String.ofList scheme.text ∧ crate.hostStr url = some (String.ofList host) ∧
    crate.port url = port.filter (· ≠ scheme.defaultPort) ∧
    crate.path url = String.ofList (if path = [] then ['/'] else path)

/-- **What is assumed of the crate** for a reference and a blob: it leaves their hosts and paths
unchanged, when it parses a URL and when it writes one with another path. -/
structure UrlCrate.LeavesUnchanged (crate : UrlCrate) (r : ImageRef) (blob : Digest) : Prop where
  reference : crate.Parses r.urlScheme r.host r.port r.path
  base : crate.Parses r.urlScheme r.host r.urlPort []
  blob : ∀ url, crate.parse (String.ofList (urlText r.urlScheme r.host r.urlPort [])) = .ok url →
    crate.asStr (crate.setPath url (String.ofList (r.blobPath blob))) =
      String.ofList (urlText r.urlScheme r.host r.urlPort (r.blobPath blob))

/-! ### The scheme -/

theorem portText_cons (port : Option UInt16) :
    portText port = [] ∨ ∃ c digits, portText port = ':' :: c :: digits ∧ c.isDigit := by
  cases port with
  | none => exact Or.inl rfl
  | some port =>
    right
    rw [portText, Nat.toString_eq_ofList_toDigits, String.toList_ofList]
    obtain ⟨c, digits, hdigits⟩ :=
      List.exists_cons_of_ne_nil (Nat.toDigits_ne_nil (n := port.toNat))
    have hdigit : c ∈ Nat.toDigits 10 port.toNat := hdigits ▸ List.mem_cons_self
    exact ⟨c, digits, by rw [hdigits],
      Nat.isDigit_of_mem_toDigits (by decide) (by decide) hdigit⟩

theorem not_scheme_at (scheme : Scheme) (host : Word hostChar) (port : Option UInt16)
    (path : List Char) :
    ¬ scheme.text ++ "://".toList <+: host.1 ++ (portText port ++ '/' :: path) := by
  rintro ⟨rest, h⟩
  -- both sides are cut at the first character that no host has
  have hscheme : (scheme.text ++ "://".toList ++ rest).takeWhile hostChar = scheme.text := by
    cases scheme <;> rfl
  have hhost (d : Char) (tail : List Char) (hd : hostChar d = false) :
      (host.1 ++ d :: tail).takeWhile hostChar = host.1 := by
    rw [List.takeWhile_append_of_pos (List.all_eq_true.mp host.2.2),
      List.takeWhile_cons_of_neg (by rw [hd]; decide), List.append_nil]
  have hcancel (tail : List Char) (heq : host.1 = scheme.text)
      (h : scheme.text ++ "://".toList ++ rest = host.1 ++ tail) : "://".toList ++ rest = tail := by
    rw [heq, List.append_assoc] at h
    exact List.append_cancel_left h
  rcases portText_cons port with hport | ⟨c, digits, hport, hdigit⟩
  · rw [hport, List.nil_append] at h
    rw [h, hhost '/' path (by decide)] at hscheme
    exact absurd (List.cons.inj (hcancel _ hscheme h)).1 (by decide)
  · rw [hport, List.cons_append, List.cons_append] at h
    rw [h, hhost ':' _ (by decide)] at hscheme
    have hslash := (List.cons.inj (List.cons.inj (hcancel _ hscheme h)).2).1
    rw [← hslash] at hdigit
    exact absurd hdigit (by decide)

theorem withScheme_text (r : ImageRef) : withScheme (String.ofList r.text) =
    String.ofList (urlText r.urlScheme r.host r.port r.path) := by
  have hhttp : Scheme.http.text ++ "://".toList = "http://".toList := by decide
  have hhttps : Scheme.https.text ++ "://".toList = "https://".toList := by decide
  have htext : (String.ofList r.text).toList = r.text := String.toList_ofList
  rw [withScheme, htext]
  cases hscheme : r.scheme with
  | none =>
    have hneither : ¬ ("http://".toList <+: r.text ∨ "https://".toList <+: r.text) := by
      rw [ImageRef.text, hscheme, ← hhttp, ← hhttps]
      rintro (h | h)
      · exact not_scheme_at _ _ _ _ h
      · exact not_scheme_at _ _ _ _ h
    have hsecure (text : List Char) :
        "https://" ++ String.ofList text = String.ofList ("https://".toList ++ text) := by
      rw [String.ofList_append, String.ofList_toList]
    rw [if_neg hneither, hsecure, ImageRef.text, ImageRef.urlScheme, hscheme, Option.getD_none,
      urlText, hhttps]
  | some scheme =>
    have heq : r.text = urlText scheme r.host r.port r.path := by
      rw [ImageRef.text, hscheme]
    have hbegins : "http://".toList <+: r.text ∨ "https://".toList <+: r.text := by
      rw [heq, ← hhttp, ← hhttps]
      cases scheme with
      | http => exact Or.inl (List.prefix_append _ _)
      | https => exact Or.inr (List.prefix_append _ _)
    rw [if_pos hbegins, heq, ImageRef.urlScheme, hscheme, Option.getD_some]

/-! ### The repository and the reference -/

theorem notMem_word {p : Char → Bool} {c : Char} (h : p c = false) (word : Word p) :
    c ∉ word.1 := by
  intro hc
  rw [List.all_eq_true.mp word.2.2 c hc] at h
  exact absurd h (by decide)

theorem notMem_repo (r : ImageRef) {c : Char} (hname : nameChar c = false) (hslash : c ≠ '/') :
    c ∉ r.repo := by
  rw [ImageRef.repo, List.mem_append, List.mem_flatMap]
  rintro (h | ⟨component, -, h⟩)
  · exact notMem_word hname r.component h
  · rcases List.mem_cons.mp h with rfl | h
    · exact hslash rfl
    · exact notMem_word hname component h

theorem notMem_digest (digest : Digest) : '@' ∉ digest.text := by
  rw [Digest.text, List.mem_append]
  rintro (h | h)
  · exact notMem_word (by decide) digest.algorithm h
  · rcases List.mem_cons.mp h with h | h
    · exact absurd h (by decide)
    · exact notMem_word (by decide) digest.hex h

/-- **What the repository and the reference of a path are.** A tag stays in the repository if there
is a digest too. -/
theorem splitReference_path (r : ImageRef) :
    splitReference (r.repo ++ (r.tagText ++ r.digestText)) =
      (r.repo ++ (if r.digest.isSome then r.tagText else []), r.reference) := by
  have hat : '@' ∉ r.repo ++ r.tagText := by
    rw [List.mem_append]
    rintro (h | h)
    · exact notMem_repo r (by decide) (by decide) h
    · rw [ImageRef.tagText] at h
      split at h
      · exact absurd h List.not_mem_nil
      · rcases List.mem_cons.mp h with h | h
        · exact absurd h (by decide)
        · exact notMem_word (by decide) _ h
  rw [splitReference, ImageRef.reference, ← List.append_assoc]
  cases hdigest : r.digest with
  | some digest =>
    rw [ImageRef.digestText, hdigest, rsplitOnce_append_cons (notMem_digest digest)]
    rfl
  | none =>
    rw [ImageRef.digestText, hdigest, List.append_nil, rsplitOnce_eq_none hat]
    cases htag : r.tag with
    | some tag =>
      rw [ImageRef.tagText, htag, rsplitOnce_append_cons (notMem_word (by decide) tag)]
      simp
    | none =>
      have hcolon : ':' ∉ r.repo := notMem_repo r (by decide) (by decide)
      rw [ImageRef.tagText, htag, List.append_nil, rsplitOnce_eq_none hcolon]
      simp

theorem dropWhile_path (r : ImageRef) :
    r.path.dropWhile (· = '/') = r.repo ++ (r.tagText ++ r.digestText) := by
  obtain ⟨c, component, hcomponent⟩ := List.exists_cons_of_ne_nil r.component.2.1
  have hc : c ≠ '/' := by
    rintro rfl
    exact notMem_word (by decide) r.component (hcomponent ▸ List.mem_cons_self)
  rw [ImageRef.path, List.dropWhile_cons_of_pos (by decide), ImageRef.repo, hcomponent,
    List.cons_append, List.cons_append, List.dropWhile_cons_of_neg]
  rw [decide_eq_true_iff]
  exact hc

theorem format_authority (host : List Char) (port : UInt16) :
    String.ofList host ++ ":" ++ toString port.toNat =
      String.ofList (host ++ portText (some port)) := by
  rw [← String.toList_inj, portText]
  simp only [String.toList_append, String.toList_ofList, List.append_assoc]
  rfl

/-- **What a reference is parsed to.** All parts are those of the reference, but a tag stays in the
repository if there is a digest too. -/
theorem parseImageRef_text {crate : UrlCrate} {r : ImageRef}
    (h : crate.Parses r.urlScheme r.host r.port r.path) :
    parseImageRef crate (String.ofList r.text) =
      .ok { r.parsed with
        repository := String.ofList (r.repo ++ (if r.digest.isSome then r.tagText else [])) } := by
  obtain ⟨url, hparse, hscheme, hhost, hport, hpath⟩ := h
  have hpath' : (crate.path url).toList = r.path := by
    have hslash : r.path ≠ [] := List.cons_ne_nil _ _
    rw [hpath, String.toList_ofList, if_neg hslash]
  have hne : r.repo ++ (r.tagText ++ r.digestText) ≠ [] :=
    List.append_ne_nil_of_left_ne_nil (List.append_ne_nil_of_left_ne_nil r.component.2.1 _) _
  rw [parseImageRef, withScheme_text, hparse]
  simp only
  rw [hhost]
  simp only
  rw [hpath', dropWhile_path, if_neg hne, splitReference_path, hscheme, hport, ImageRef.parsed,
    ImageRef.urlPort]
  cases Option.filter (· ≠ r.urlScheme.defaultPort) r.port with
  | none => rw [portText, List.append_nil]
  | some port =>
    simp only
    rw [format_authority]

/-- The reference comes out as it was written, unless it has both a tag and a digest. -/
theorem parseImageRef_eq_parsed_iff {crate : UrlCrate} {r : ImageRef}
    (h : crate.Parses r.urlScheme r.host r.port r.path) :
    parseImageRef crate (String.ofList r.text) = .ok r.parsed ↔ r.tag = none ∨ r.digest = none := by
  have hrepository : parseImageRef crate (String.ofList r.text) = .ok r.parsed ↔
      (if r.digest.isSome then r.tagText else []) = [] := by
    rw [parseImageRef_text h, Except.ok.injEq]
    constructor
    · intro heq
      have hrepo := String.ofList_inj.mp (congrArg ParsedImageRef.repository heq)
      exact List.append_right_eq_self.mp hrepo
    · intro hnil
      rw [hnil, List.append_nil]
      rfl
  rw [hrepository]
  cases htag : r.tag with
  | none => simp [ImageRef.tagText, htag]
  | some tag =>
    cases hdigest : r.digest with
    | none => simp
    | some digest => simp [ImageRef.tagText, htag]

/-! ### The blob -/

/-- The URL of a blob is made from the parts of the reference. -/
theorem buildBlobUrl_text {crate : UrlCrate} {hosts : HostsFiles} {hostsDir : Option String}
    {r : ImageRef} {blob : Digest} (hurl : crate.LeavesUnchanged r blob)
    (hhosts : hostsServer hosts hostsDir (String.ofList r.host) = .ok none)
    (hparsed : parseImageRef crate (String.ofList r.text) = .ok r.parsed) :
    ∃ url, buildBlobUrl crate hosts (String.ofList r.text) hostsDir (String.ofList blob.text) =
        .ok url ∧
      crate.asStr url =
        String.ofList (urlText r.urlScheme r.host r.urlPort (r.blobPath blob)) := by
  have hbase : r.parsed.defaultBaseUrl =
      String.ofList (urlText r.urlScheme r.host r.urlPort []) := by
    rw [← String.toList_inj, ParsedImageRef.defaultBaseUrl, ImageRef.parsed, urlText]
    simp only [String.toList_append, String.toList_ofList, List.append_assoc, List.append_nil]
  obtain ⟨url, hparse, -, -, -, hpath⟩ := hurl.base
  have hslash : ((crate.path url).toList.reverse.dropWhile (· = '/')).reverse = [] := by
    rw [hpath, if_pos rfl]
    decide
  have hblob : String.ofList [] ++ "/v2/" ++ r.parsed.repository ++ "/blobs/" ++
      String.ofList blob.text = String.ofList (r.blobPath blob) := by
    rw [← String.toList_inj, ImageRef.parsed, ImageRef.blobPath]
    simp only [String.toList_append, String.toList_ofList, List.append_assoc, List.nil_append]
  refine ⟨crate.setPath url (String.ofList (r.blobPath blob)), ?_, hurl.blob url hparse⟩
  rw [buildBlobUrl, hparsed]
  simp only [bind, Except.bind]
  change hostsServer hosts hostsDir r.parsed.registry = .ok none at hhosts
  rw [hhosts]
  simp only [Option.getD_none]
  rw [hbase, hparse]
  simp only
  rw [hslash, hblob]

/-- **Image references parse to their components.** If the crate leaves their hosts and paths
unchanged and no server is named in place of the registry, then a reference is parsed to its parts
and the URL of a blob is made from these, if and only if the reference does not have both a tag and
a digest. -/
theorem image_ref_components_iff (crate : UrlCrate) (hosts : HostsFiles) (hostsDir : Option String)
    (r : ImageRef) (blob : Digest) (hurl : crate.LeavesUnchanged r blob)
    (hhosts : hostsServer hosts hostsDir (String.ofList r.host) = .ok none) :
    (parseImageRef crate (String.ofList r.text) = .ok r.parsed ∧
      ∃ url, buildBlobUrl crate hosts (String.ofList r.text) hostsDir (String.ofList blob.text) =
          .ok url ∧
        crate.asStr url =
          String.ofList (urlText r.urlScheme r.host r.urlPort (r.blobPath blob))) ↔
      r.tag = none ∨ r.digest = none := by
  rw [← parseImageRef_eq_parsed_iff hurl.reference]
  constructor
  · rintro ⟨hparsed, -⟩
    exact hparsed
  · intro hparsed
    exact ⟨hparsed, buildBlobUrl_text hurl hhosts hparsed⟩

/-- A URL with nothing but a scheme, a host, a port and a path. -/
structure SmallUrl where
  scheme : Scheme
  host : List Char
  port : Option UInt16
  path : List Char
  deriving DecidableEq

/-- The URL in a text after its scheme. -/
def SmallUrl.parse (scheme : Scheme) (text : List Char) : Except String SmallUrl :=
  let authority := text.takeWhile (· ≠ '/')
  let path := if '/' ∈ text then text.dropWhile (· ≠ '/') else ['/']
  let digits := (authority.dropWhile (· ≠ ':')).drop 1
  let port := digits.foldl (fun n c => 10 * n + (c.toNat - '0'.toNat)) 0
  if authority.takeWhile (· ≠ ':') = [] then .error "empty host"
  else if ¬ digits.all Char.isDigit ∨ 65536 ≤ port then .error "invalid port number"
  else
    .ok {
      scheme
      host := authority.takeWhile (· ≠ ':')
      port := if digits = [] ∨ UInt16.ofNat port = scheme.defaultPort then none
        else some (UInt16.ofNat port)
      path }

/-- The crate on such URLs. -/
abbrev smallCrate : UrlCrate where
  Url := SmallUrl
  parse text :=
    if "http://".toList <+: text.toList then SmallUrl.parse .http (text.toList.drop 7)
    else if "https://".toList <+: text.toList then SmallUrl.parse .https (text.toList.drop 8)
    else .error "relative URL without a base"
  scheme url := String.ofList url.scheme.text
  hostStr url := some (String.ofList url.host)
  port url := url.port
  path url := String.ofList url.path
  setPath url path := { url with path := path.toList }
  asStr url := String.ofList (urlText url.scheme url.host url.port url.path)

/-- A hosts directory without files. -/
def noHosts : HostsFiles where
  read _ _ := none
  server _ := .ok none

def smallHost : List Char := "registry.example.com".toList

/-- References to one image of a registry with a port of its own. -/
def smallRef (tag : Option (Word tagChar)) (digest : Option Digest) : ImageRef where
  scheme := none
  host := ⟨smallHost, by decide +kernel⟩
  port := some 5000
  component := ⟨"ns".toList, by decide⟩
  components := [⟨"image".toList, by decide⟩]
  tag
  digest

def smallTag : Word tagChar := ⟨"v1.0".toList, by decide⟩

def smallDigest : Digest := ⟨⟨"sha256".toList, by decide⟩, ⟨"0af".toList, by decide⟩⟩

theorem smallCrate_asStr (url : SmallUrl) (path : List Char) :
    smallCrate.asStr (smallCrate.setPath url (String.ofList path)) =
      String.ofList (urlText url.scheme url.host url.port path) := by
  change String.ofList (urlText _ _ _ (String.ofList path).toList) = _
  rw [String.toList_ofList]

/-- The crate leaves the small references unchanged. -/
theorem smallCrate_leavesUnchanged (tag : Option (Word tagChar)) (digest : Option Digest)
    (h : smallCrate.parse (String.ofList
      (urlText .https smallHost (some 5000) (smallRef tag digest).path)) =
        .ok ⟨.https, smallHost, some 5000, (smallRef tag digest).path⟩) :
    smallCrate.LeavesUnchanged (smallRef tag digest) smallDigest := by
  have hport : (some 5000 : Option UInt16).filter (· ≠ Scheme.https.defaultPort) = some 5000 := by
    decide
  have hparse : smallCrate.parse (String.ofList
      (urlText .https smallHost (some 5000) [])) =
        .ok ⟨.https, smallHost, some 5000, ['/']⟩ := by
    decide +kernel
  refine ⟨⟨_, h, rfl, rfl, hport.symm, rfl⟩, ⟨_, hparse, rfl, rfl, hport.symm, rfl⟩, ?_⟩
  intro url hurl
  obtain rfl := Except.ok.inj (hparse.symm.trans hurl)
  exact (smallCrate_asStr _ _).trans (congrArg (fun port => String.ofList
    (urlText .https smallHost port ((smallRef tag digest).blobPath smallDigest))) hport.symm)

/-- `registry.example.com:5000/ns/image:v1.0` -/
theorem image_ref_components_smallTag :
    parseImageRef smallCrate (String.ofList (smallRef (some smallTag) none).text) =
      .ok (smallRef (some smallTag) none).parsed ∧
    ∃ url, buildBlobUrl smallCrate noHosts (String.ofList (smallRef (some smallTag) none).text)
        (some "/etc/hosts.d") (String.ofList smallDigest.text) = .ok url ∧
      smallCrate.asStr url = String.ofList (urlText .https smallHost (some 5000)
        "/v2/ns/image/blobs/sha256:0af".toList) := by
  obtain ⟨hparsed, url, hbuild, hstr⟩ := (image_ref_components_iff smallCrate noHosts
    (some "/etc/hosts.d") (smallRef (some smallTag) none) smallDigest
    (smallCrate_leavesUnchanged _ _ (by decide +kernel)) rfl).mpr (Or.inr rfl)
  refine ⟨hparsed, url, hbuild, hstr.trans ?_⟩
  decide +kernel

/-- In `registry.example.com:5000/ns/image:v1.0@sha256:0af` the tag is taken for a part of the
repository. -/
theorem image_ref_tag_and_digest :
    smallCrate.LeavesUnchanged (smallRef (some smallTag) (some smallDigest)) smallDigest ∧
    parseImageRef smallCrate (String.ofList (smallRef (some smallTag) (some smallDigest)).text) =
      .ok { (smallRef (some smallTag) (some smallDigest)).parsed with
        repository := "ns/image:v1.0" } ∧
    ¬ parseImageRef smallCrate (String.ofList (smallRef (some smallTag) (some smallDigest)).text) =
      .ok (smallRef (some smallTag) (some smallDigest)).parsed := by
  refine ⟨smallCrate_leavesUnchanged _ _ (by decide +kernel), ?_, ?_⟩
  · decide +kernel
  · decide +kernel

end Oci

end Lazyd
