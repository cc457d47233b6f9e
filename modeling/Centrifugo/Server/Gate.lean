import Centrifugo.Api.Agreement
import Centrifugo.Server.Admin
import Centrifugo.Server.Namespaces

/-!
# Who may call the API

The commands of the API are served on three surfaces, each with a lock of its own: a key over
HTTP, a token of the admin login, and a key over gRPC. Requests come in any order, from holders
of the keys and from strangers. A stranger knows no key and no password, and has only the tokens
that the server has given him.

What the JWT package does is a parameter.
-/

namespace Centrifugo

open Json

/-! ## The locks -/

structure ApiAuth where
  key : Text
  insecure : Bool

/-- A header as a text. Only visible ASCII and tabs are read. -/
def headerText (value : Bytes) : Option Text :=
  if value.all fun b => 32 ≤ b && b < 127 || b == 9 then
    some (value.map fun b => Char.ofNat b.toNat)
  else none

def eqIgnoreAsciiCase (a b : Text) : Bool := a.map Char.toLower == b.map Char.toLower

def splitWhitespace (text : Text) : List Text :=
  (text.splitOnP isWhitespace).filter fun word => !word.isEmpty

/-- The key is the second of two words of the header, or a value of the query as it stands. -/
def authorized (auth : ApiAuth) (authorization : Option Bytes) (query : Option Text) : Bool :=
  !auth.key.isEmpty &&
    ((authorization.bind headerText).any (fun text =>
        match splitWhitespace text with
        | [scheme, key] => eqIgnoreAsciiCase scheme "apikey".toList && key == auth.key
        | _ => false) ||
      query.any fun q => (q.splitOn '&').any fun pair =>
        splitOnce ['='] pair == some ("api_key".toList, auth.key))

/-- What the JWT package does for the admin login: it signs a token with a secret, and tells
whether a token is signed with a secret. -/
structure AdminTokens where
  encode : Text → Option Text
  decode : Text → Text → Bool

def genAdminToken (tokens : AdminTokens) (secret : Text) : Option Text := tokens.encode secret

def verifyAdminToken (tokens : AdminTokens) (secret token : Text) : Bool :=
  !secret.isEmpty && tokens.decode secret token

/-- A header with a scheme and a token of the login. -/
def adminAuthed (tokens : AdminTokens) (secret : Text) (authorization : Option Bytes) : Bool :=
  (authorization.bind headerText).any fun text =>
    (splitOnce [' '] text).any fun (scheme, token) =>
      eqIgnoreAsciiCase scheme "token".toList && verifyAdminToken tokens secret token

def checkApikey (header key : Text) : Bool := header == "apikey ".toList ++ key

/-! ## The handlers -/

structure Headers where
  authorization : Option Bytes := none
  contentType : Option Bytes := none

def Headers.contentTypeText (headers : Headers) : String :=
  String.ofList ((headers.contentType.bind headerText).getD [])

/-- A status without a body. -/
def HttpResponse.bare (status : Nat) : HttpResponse := ⟨status, "", []⟩

/-- The API of a server, with what its locks are set to. -/
structure Surface (σ : Type) where
  node : ApiNode σ
  printF64 : F64 → RawValue
  tokens : AdminTokens
  auth : ApiAuth
  admin : AdminConfig
  grpcKey : Text

namespace Surface

inductive Request
  | api (headers : Headers) (query : Option Text) (body : Bytes)
  | adminAuth (query : Option Text) (body : Text)
  | adminApi (headers : Headers) (body : Bytes)
  | grpc (authorization : Option Bytes) (call : ApiCall)

inductive Answer
  | http (response : HttpResponse)
  /-- `none` is a panic. -/
  | login (response : Option AdminResponse)
  | grpc (response : ApiResponse)
  | unauthenticated
  deriving DecidableEq

variable {σ : Type} (surface : Surface σ)

def runApi (headers : Headers) (body : Bytes) (s : σ) : σ × Answer :=
  let (batch, response) :=
    Centrifugo.runApi surface.node surface.printF64 headers.contentTypeText body s
  (batch.state, .http response)

def apiHandler (headers : Headers) (query : Option Text) (body : Bytes) (s : σ) : σ × Answer :=
  if !surface.auth.insecure && !authorized surface.auth headers.authorization query then
    (s, .http (.bare 401))
  else surface.runApi headers body s

def adminApiHandler (headers : Headers) (body : Bytes) (s : σ) : σ × Answer :=
  if !surface.admin.enabled then (s, .http (.bare 404))
  else if surface.admin.insecure then surface.runApi headers body s
  else if surface.admin.secret.isEmpty then (s, .http (.bare 404))
  else if adminAuthed surface.tokens surface.admin.secret headers.authorization then
    surface.runApi headers body s
  else (s, .http (.bare 401))

/-- A gRPC call behind the interceptor. Without a key it is open. -/
def grpcCall (authorization : Option Bytes) (call : ApiCall) (s : σ) : σ × Answer :=
  if surface.grpcKey.isEmpty ||
      (authorization.bind headerText).any fun header => checkApikey header surface.grpcKey then
    let (after, response) := GrpcApi.serve surface.node call s
    (after, .grpc response)
  else (s, .unauthenticated)

def handle : Request → σ → σ × Answer
  | .api headers query body, s => surface.apiHandler headers query body s
  | .adminAuth query body, s =>
      (s, .login (adminAuth (genAdminToken surface.tokens) surface.admin query body))
  | .adminApi headers body, s => surface.adminApiHandler headers body s
  | .grpc authorization call, s => surface.grpcCall authorization call s

end Surface

/-! ## What opens a lock -/

/-- The first piece of a text begins it, and the others are inside. -/
theorem splitOnP_parts (p : Char → Bool) (text : Text) :
    ∃ front rest, text.splitOnP p = front :: rest ∧ front <+: text ∧
      ∀ word ∈ rest, word <:+: text := by
  induction text with
  | nil => exact ⟨[], [], List.splitOnP_nil, List.prefix_rfl, nofun⟩
  | cons c text ih =>
      obtain ⟨front, rest, cut, begins, inside⟩ := ih
      have later : ∀ {word : Text}, word <:+: text → word <:+: c :: text :=
        fun within => within.trans (List.suffix_cons c text).isInfix
      rw [List.splitOnP_cons_eq_if_modifyHead, cut]
      split
      · refine ⟨[], _, rfl, List.nil_prefix, fun word mem => ?_⟩
        obtain rfl | mem := List.mem_cons.mp mem
        · exact later begins.isInfix
        · exact later (inside word mem)
      · exact ⟨c :: front, rest, rfl, (List.prefix_cons_inj c).mpr begins,
          fun word mem => later (inside word mem)⟩

theorem infix_of_mem_splitOnP {p : Char → Bool} {text word : Text}
    (mem : word ∈ text.splitOnP p) : word <:+: text := by
  obtain ⟨front, rest, cut, begins, inside⟩ := splitOnP_parts p text
  rw [cut] at mem
  obtain rfl | mem := List.mem_cons.mp mem
  · exact begins.isInfix
  · exact inside word mem

/-- The text of a header has two words, of which the second is the key. -/
theorem infix_of_words {text scheme key : Text} (words : splitWhitespace text = [scheme, key]) :
    key <:+: text := by
  have mem : key ∈ splitWhitespace text := by rw [words]; simp
  exact infix_of_mem_splitOnP (List.mem_filter.mp mem).1

theorem infix_of_splitOnce {boundary text front back : Text}
    (cut : splitOnce boundary text = some (front, back)) : back <:+ text := by
  obtain ⟨rfl, -⟩ := splitOnce_eq_some.mp cut
  exact List.suffix_append _ _

/-- A request is let in with the key in the header or in the query. -/
theorem mentions_of_authorized {auth : ApiAuth} {authorization : Option Bytes}
    {query : Option Text} (h : authorized auth authorization query) :
    auth.key ≠ [] ∧ ((∃ text ∈ authorization.bind headerText, auth.key <:+: text) ∨
      ∃ q ∈ query, auth.key <:+: q) := by
  simp only [authorized, Bool.and_eq_true, Bool.or_eq_true, Bool.not_eq_true',
    List.isEmpty_eq_false_iff, Option.any_eq_true] at h
  obtain ⟨full, ⟨text, header, words⟩ | ⟨q, given, pairs⟩⟩ := h
  · refine ⟨full, .inl ⟨text, header, ?_⟩⟩
    split at words
    next scheme key cut =>
      simp only [Bool.and_eq_true, beq_iff_eq] at words
      rw [← words.2]
      exact infix_of_words cut
    next => cases words
  · obtain ⟨pair, mem, cut⟩ := List.any_eq_true.mp pairs
    have back := infix_of_splitOnce (beq_iff_eq.mp cut)
    exact ⟨full, .inr ⟨q, given, back.isInfix.trans (infix_of_mem_splitOnP mem)⟩⟩

/-! ## Strangers -/

inductive Party
  | holder
  | stranger
  deriving DecidableEq

/-- What the requests so far have led to. -/
structure Visits (σ : Type) where
  state : σ
  /-- The tokens that strangers have been given. -/
  known : List Text := []
  /-- The answers to holders. -/
  served : List Surface.Answer := []
  /-- The answers to strangers. -/
  turned : List Surface.Answer := []

namespace Surface

variable {σ : Type} {surface : Surface σ}

def Answer.tokens : Answer → List Text
  | .login (some (.token token)) => [token]
  | _ => []

/-- A request that is not let in. -/
def Answer.Refuses : Answer → Prop
  | .http response => response = .bare 401 ∨ response = .bare 404
  | .login response => ∀ token, response ≠ some (.token token)
  | .grpc _ => False
  | .unauthenticated => True

/-- No lock is open to everybody. -/
structure Locked (surface : Surface σ) : Prop where
  api : surface.auth.insecure = false
  admin : surface.admin.enabled = true → surface.admin.insecure = false
  grpc : surface.grpcKey ≠ []

/-- A request of a stranger. A token of his that is signed with the secret is one that he was
given. -/
def Foreign (surface : Surface σ) (known : List Text) : Request → Prop
  | .api headers query _ => surface.auth.key ≠ [] →
      (∀ text ∈ headers.authorization.bind headerText, ¬ surface.auth.key <:+: text) ∧
        ∀ q ∈ query, ¬ surface.auth.key <:+: q
  | .adminAuth query body => formPassword body query ≠ some surface.admin.password
  | .adminApi headers _ => ∀ text ∈ headers.authorization.bind headerText, ∀ token,
      token <:+ text → surface.tokens.decode surface.admin.secret token → token ∈ known
  | .grpc authorization _ =>
      ∀ text ∈ authorization.bind headerText, ¬ surface.grpcKey <:+: text

def step (surface : Surface σ) (visits : Visits σ) (party : Party) (request : Request) :
    Visits σ :=
  let (state, answer) := surface.handle request visits.state
  match party with
  | .holder => { visits with state, served := visits.served ++ [answer] }
  | .stranger =>
      { visits with
        state
        known := visits.known ++ answer.tokens
        turned := visits.turned ++ [answer] }

def Step (surface : Surface σ) (visits : Visits σ) (visit : Party × Request)
    (visits' : Visits σ) : Prop :=
  (visit.1 = .stranger → surface.Foreign visits.known visit.2) ∧
    visits' = surface.step visits visit.1 visit.2

/-- A stranger is turned away, and nothing happens. -/
theorem handle_foreign (locked : surface.Locked) {request : Request}
    (foreign : surface.Foreign [] request) (s : σ) :
    ∃ answer, surface.handle request s = (s, answer) ∧ answer.Refuses := by
  cases request with
  | api headers query body =>
      have refused : authorized surface.auth headers.authorization query = false := by
        refine Bool.eq_false_iff.mpr fun opened => ?_
        obtain ⟨full, ⟨text, header, here⟩ | ⟨q, given, here⟩⟩ := mentions_of_authorized opened
        · exact (foreign full).1 text header here
        · exact (foreign full).2 q given here
      refine ⟨.http (.bare 401), ?_, .inl rfl⟩
      rw [handle, apiHandler, locked.api, refused]
      rfl
  | adminAuth query body =>
      refine ⟨_, rfl, fun token got => ?_⟩
      rw [adminAuth] at got
      split at got
      next => cases got
      next enabled =>
        rw [locked.admin (by simpa using enabled)] at got
        simp only [Bool.false_eq_true, if_false] at got
        split at got
        next => cases got
        next =>
          split at got
          next => cases got
          next password read =>
            rw [if_pos fun same => foreign (by rw [read, same])] at got
            cases got
  | adminApi headers body =>
      rw [handle, adminApiHandler]
      split
      next => exact ⟨.http (.bare 404), rfl, .inr rfl⟩
      next enabled =>
        have refused : adminAuthed surface.tokens surface.admin.secret headers.authorization =
            false := by
          refine Bool.eq_false_iff.mpr fun opened => ?_
          obtain ⟨text, header, here⟩ := (Option.any_eq_true _ _).mp opened
          obtain ⟨⟨scheme, token⟩, cut, signed⟩ := (Option.any_eq_true _ _).mp here
          simp only [verifyAdminToken, Bool.and_eq_true] at signed
          cases foreign text header token (infix_of_splitOnce cut) signed.2.2
        rw [locked.admin (by simpa using enabled), refused]
        simp only [Bool.false_eq_true, if_false]
        split
        · exact ⟨.http (.bare 404), rfl, .inr rfl⟩
        · exact ⟨.http (.bare 401), rfl, .inl rfl⟩
  | grpc authorization call =>
      have refused : ((authorization.bind headerText).any fun header =>
          checkApikey header surface.grpcKey) = false := by
        refine Bool.eq_false_iff.mpr fun opened => ?_
        obtain ⟨text, header, same⟩ := (Option.any_eq_true _ _).mp opened
        refine foreign text header ?_
        rw [beq_iff_eq.mp same]
        exact (List.suffix_append _ _).isInfix
      refine ⟨.unauthenticated, ?_, trivial⟩
      rw [handle, grpcCall, refused, List.isEmpty_eq_false_iff.mpr locked.grpc]
      rfl

theorem Answer.tokens_of_refuses {answer : Answer} (refuses : answer.Refuses) :
    answer.tokens = [] := by
  cases answer with
  | http _ => rfl
  | grpc _ => rfl
  | unauthenticated => rfl
  | login response =>
      cases response with
      | none => rfl
      | some response =>
          cases response with
          | token value => exact absurd rfl (refuses value)
          | _ => rfl

/-- The requests of holders alone. -/
def serveAll (surface : Surface σ) : List Request → σ → σ × List Answer
  | [], s => (s, [])
  | request :: requests, s =>
      let (after, answer) := surface.handle request s
      let (last, answers) := surface.serveAll requests after
      (last, answer :: answers)

def holders (visits : List (Party × Request)) : List Request :=
  visits.filterMap fun visit => if visit.1 = .holder then some visit.2 else none

/-- Whatever strangers ask in between, they are turned away, and holders get the answers that
they would get without them. -/
theorem strangers_unheard (locked : surface.Locked) {visits : List (Party × Request)} {s : σ}
    {after : Visits σ} (run : Steps surface.Step ⟨s, [], [], []⟩ visits after) :
    (after.state, after.served) = surface.serveAll (holders visits) s ∧ after.known = [] ∧
      ∀ answer ∈ after.turned, answer.Refuses := by
  suffices ∀ before : Visits σ, Steps surface.Step before visits after → before.known = [] →
      (∀ answer ∈ before.turned, answer.Refuses) →
      after.state = (surface.serveAll (holders visits) before.state).1 ∧
        after.served = before.served ++ (surface.serveAll (holders visits) before.state).2 ∧
        after.known = [] ∧ ∀ answer ∈ after.turned, answer.Refuses by
    obtain ⟨state, served, known, turned⟩ := this _ run rfl nofun
    exact ⟨Prod.ext state (by simpa using served), known, turned⟩
  clear run
  intro before run unknown refused
  induction run with
  | nil visits => exact ⟨rfl, by simp [holders, serveAll], unknown, refused⟩
  | @cons before middle after visit visits move _ ih =>
      obtain ⟨party, request⟩ := visit
      obtain ⟨foreign, rfl⟩ := move
      cases party with
      | holder =>
          obtain ⟨state, served, rest⟩ := ih unknown refused
          refine ⟨state, ?_, rest⟩
          rw [served]
          simp [step, holders, serveAll]
      | stranger =>
          have alone := foreign rfl
          rw [unknown] at alone
          obtain ⟨answer, done, refuses⟩ := handle_foreign locked alone before.state
          have next : surface.step before .stranger request =
              { before with turned := before.turned ++ [answer] } := by
            simp [step, done, Answer.tokens_of_refuses refuses]
          rw [next] at ih
          refine ih unknown fun answer' mem => ?_
          obtain old | new := List.mem_append.mp mem
          · exact refused answer' old
          · rw [List.mem_singleton.mp new]
            exact refuses

end Surface

/-! ## Keys that can be used -/

/-- A character of a header. -/
def Visible (c : Char) : Prop := 32 ≤ c.toNat ∧ c.toNat < 127 ∨ c.toNat = 9

instance (c : Char) : Decidable (Visible c) := inferInstanceAs (Decidable (_ ∨ _))

/-- A condition on every character of a text is evaluated along the text. -/
theorem forall_mem_of_all {p : Char → Prop} [DecidablePred p] {text : Text}
    (all : text.all fun c => p c) : ∀ c ∈ text, p c := by
  simpa using all

/-- A text as the value of a header. -/
def headerOf (text : Text) : Bytes := text.map fun c => UInt8.ofNat c.toNat

theorem headerText_headerOf {text : Text} (visible : ∀ c ∈ text, Visible c) :
    headerText (headerOf text) = some text := by
  have small : ∀ c ∈ text, (UInt8.ofNat c.toNat).toNat = c.toNat := by
    intro c mem
    refine UInt8.toNat_ofNat_of_lt' ?_
    have here := visible c mem
    unfold Visible at here
    change c.toNat < 256
    omega
  have plain : (headerOf text).all fun b => 32 ≤ b && b < 127 || b == 9 := by
    rw [List.all_eq_true]
    intro b byte
    obtain ⟨c, mem, rfl⟩ := List.mem_map.mp byte
    have here := visible c mem
    rw [Visible, ← small c mem] at here
    simpa [UInt8.le_iff_toNat_le, UInt8.lt_iff_toNat_lt, UInt8.ext_iff, ← UInt8.toNat_inj]
      using here
  rw [headerText, if_pos plain, headerOf, List.map_map]
  refine congrArg some ?_
  refine (List.map_congr_left fun c mem => ?_).trans (List.map_id text)
  have same := small c mem
  simp only [Function.comp_apply, id_eq, same]
  exact Char.ofNat_toNat c

theorem visible_of_headerText {value : Bytes} {text : Text} (read : headerText value = some text)
    {c : Char} (mem : c ∈ text) : Visible c := by
  obtain ⟨plain, same⟩ := Option.ite_none_right_eq_some.mp read
  rw [← Option.some.inj same] at mem
  obtain ⟨b, byte, rfl⟩ := List.mem_map.mp mem
  have here := List.all_eq_true.mp plain b byte
  have valid : b.toNat.isValidChar := .inl (by have := b.toNat_lt; omega)
  have same : (Char.ofNat b.toNat).toNat = b.toNat := by
    rw [Char.ofNat, dif_pos valid]
    rfl
  simpa [Visible, same, UInt8.le_iff_toNat_le, UInt8.lt_iff_toNat_lt, ← UInt8.toNat_inj] using here

/-- No character of a piece is a separator. -/
theorem not_separator_of_mem_splitOnP {p : Char → Bool} {text word : Text}
    (mem : word ∈ text.splitOnP p) {c : Char} (inside : c ∈ word) : p c = false := by
  induction text generalizing word with
  | nil =>
      rw [List.splitOnP_nil, List.mem_singleton] at mem
      rw [mem] at inside
      cases inside
  | cons d text ih =>
      obtain ⟨front, rest, cut, -⟩ := splitOnP_parts p text
      rw [List.splitOnP_cons_eq_if_modifyHead] at mem
      rw [cut] at ih mem
      split at mem
      next =>
        obtain rfl | mem := List.mem_cons.mp mem
        · cases inside
        · exact ih mem inside
      next other =>
        obtain rfl | mem := List.mem_cons.mp mem
        · obtain rfl | inside := List.mem_cons.mp inside
          · exact Bool.eq_false_iff.mpr other
          · exact ih List.mem_cons_self inside
        · exact ih (List.mem_cons_of_mem _ mem) inside

/-- What the HTTP package lets stand in the query of a URI. It decodes nothing there. -/
structure QueryChars where
  allowed : Char → Bool
  name : "api_key=".toList.all allowed

def QueryChars.Allows (chars : QueryChars) (text : Text) : Prop := ∀ c ∈ text, chars.allowed c

section Keys

variable {auth : ApiAuth} {chars : QueryChars}

/-- A key opens the API from a header exactly when it is one word. -/
theorem header_key_iff : (∃ authorization, authorized auth authorization none) ↔
    auth.key ≠ [] ∧ ∀ c ∈ auth.key, Visible c ∧ isWhitespace c = false := by
  constructor
  · intro h
    obtain ⟨authorization, opened⟩ := h
    simp only [authorized, Bool.and_eq_true, Option.any_none, Bool.or_false, Bool.not_eq_true',
      List.isEmpty_eq_false_iff, Option.any_eq_true] at opened
    obtain ⟨full, text, header, words⟩ := opened
    refine ⟨full, fun c mem => ?_⟩
    split at words
    next scheme key cut =>
      simp only [Bool.and_eq_true, beq_iff_eq] at words
      rw [← words.2] at mem
      have word : key ∈ splitWhitespace text := by rw [cut]; simp
      have piece := (List.mem_filter.mp word).1
      obtain ⟨value, -, read⟩ := Option.bind_eq_some_iff.mp header
      exact ⟨visible_of_headerText read ((infix_of_mem_splitOnP piece).subset mem),
        not_separator_of_mem_splitOnP piece mem⟩
    next => cases words
  · intro h
    obtain ⟨full, plain⟩ := h
    have scheme : ∀ c ∈ "apikey".toList, Visible c ∧ isWhitespace c = false :=
      forall_mem_of_all (by decide)
    have cut : splitWhitespace ("apikey".toList ++ ' ' :: auth.key) =
        ["apikey".toList, auth.key] := by
      rw [splitWhitespace, List.splitOnP_append_cons_of_forall_mem (fun c mem => (scheme c mem).2)
        ' ' (by decide), List.splitOnP_eq_singleton fun c mem => (plain c mem).2]
      simp [full]
    have read : headerText (headerOf ("apikey".toList ++ ' ' :: auth.key)) =
        some ("apikey".toList ++ ' ' :: auth.key) := by
      refine headerText_headerOf fun c mem => ?_
      obtain mem | mem := List.mem_append.mp mem
      · exact (scheme c mem).1
      · obtain rfl | mem := List.mem_cons.mp mem
        · exact .inl (by decide)
        · exact (plain c mem).1
    refine ⟨some (headerOf ("apikey".toList ++ ' ' :: auth.key)), ?_⟩
    rw [authorized, Option.bind_some, read, Option.any_some, cut]
    simp [full, eqIgnoreAsciiCase]

/-- A key opens the API from a query exactly when it can stand there and has no ampersand. -/
theorem query_key_iff :
    (∃ query, (∀ q ∈ query, chars.Allows q) ∧ authorized auth none query) ↔
    auth.key ≠ [] ∧ chars.Allows auth.key ∧ '&' ∉ auth.key := by
  constructor
  · intro h
    obtain ⟨query, stands, opened⟩ := h
    simp only [authorized, Bool.and_eq_true, Option.bind_none, Option.any_none, Bool.false_or,
      Bool.not_eq_true', List.isEmpty_eq_false_iff, Option.any_eq_true] at opened
    obtain ⟨full, q, given, pairs⟩ := opened
    obtain ⟨pair, mem, cut⟩ := List.any_eq_true.mp pairs
    have inside := infix_of_splitOnce (beq_iff_eq.mp cut)
    refine ⟨full, fun c here => ?_, fun ampersand => ?_⟩
    · exact stands q given c ((infix_of_mem_splitOnP mem).subset (inside.subset here))
    · have apart := not_separator_of_mem_splitOnP mem (inside.subset ampersand)
      simp at apart
  · intro h
    obtain ⟨full, allowed, apart⟩ := h
    have single : ("api_key".toList ++ '=' :: auth.key).splitOn '&' =
        ["api_key".toList ++ '=' :: auth.key] := by
      refine List.splitOnP_eq_singleton fun c mem => beq_eq_false_iff_ne.mpr ?_
      rintro rfl
      obtain mem | mem := List.mem_append.mp mem
      · exact absurd mem (by decide)
      · exact apart (List.mem_of_ne_of_mem (by decide) mem)
    have cut : splitOnce ['='] ("api_key".toList ++ '=' :: auth.key) =
        some ("api_key".toList, auth.key) := rfl
    have stands : chars.Allows ("api_key".toList ++ '=' :: auth.key) := by
      intro c mem
      have mem : c ∈ "api_key=".toList ++ auth.key := mem
      obtain mem | mem := List.mem_append.mp mem
      · exact List.all_eq_true.mp chars.name c mem
      · exact allowed c mem
    refine ⟨some ("api_key".toList ++ '=' :: auth.key), by simpa using stands, ?_⟩
    have pairs : (("api_key".toList ++ '=' :: auth.key).splitOn '&').any (fun pair =>
        splitOnce ['='] pair == some ("api_key".toList, auth.key)) = true := by
      rw [single, List.any_cons, cut, beq_self_eq_true, Bool.true_or]
    rw [authorized, Option.any_some, pairs, Bool.or_true, Bool.and_true]
    simpa using full

theorem grpc_key_iff {key : Text} :
    (∃ authorization : Option Bytes, (authorization.bind headerText).any fun header =>
      checkApikey header key) ↔ ∀ c ∈ key, Visible c := by
  constructor
  · intro h
    obtain ⟨authorization, opened⟩ := h
    obtain ⟨text, header, same⟩ := (Option.any_eq_true _ _).mp opened
    obtain ⟨value, -, read⟩ := Option.bind_eq_some_iff.mp header
    intro c mem
    refine visible_of_headerText read ?_
    rw [beq_iff_eq.mp same]
    exact List.mem_append_right _ mem
  · intro visible
    have scheme : ∀ c ∈ "apikey ".toList, Visible c := forall_mem_of_all (by decide)
    have read : headerText (headerOf ("apikey ".toList ++ key)) = some ("apikey ".toList ++ key) :=
      headerText_headerOf fun c mem => (List.mem_append.mp mem).elim (scheme c) (visible c)
    refine ⟨some (headerOf ("apikey ".toList ++ key)), ?_⟩
    rw [Option.bind_some, read, Option.any_some, checkApikey, beq_self_eq_true]

end Keys

namespace Surface

variable {σ : Type} {surface : Surface σ} {chars : QueryChars}

theorem adminAuthed_token {tokens : AdminTokens} {secret token : Text} (full : secret ≠ [])
    (visible : ∀ c ∈ token, Visible c) (signed : tokens.decode secret token = true) :
    adminAuthed tokens secret (some (headerOf ("token ".toList ++ token))) = true := by
  have scheme : ∀ c ∈ "token ".toList, Visible c := forall_mem_of_all (by decide)
  have read : headerText (headerOf ("token ".toList ++ token)) =
      some ("token ".toList ++ token) :=
    headerText_headerOf fun c mem => (List.mem_append.mp mem).elim (scheme c) (visible c)
  have cut : splitOnce [' '] ("token ".toList ++ token) = some ("token".toList, token) := rfl
  rw [adminAuthed, Option.bind_some, read, Option.any_some, cut, Option.any_some]
  simp [verifyAdminToken, full, signed, eqIgnoreAsciiCase]

/-- What the API answers to a request that is let in. -/
theorem runApi_ne_bare (headers : Headers) (body : Bytes) (s : σ) :
    (surface.runApi headers body s).2 ≠ .http (.bare 401) := by
  intro same
  have status : (respond headers.contentTypeText (Centrifugo.runApi surface.node surface.printF64
      headers.contentTypeText body s).1.replies).status = 401 :=
    congrArg HttpResponse.status (Answer.http.inj same)
  generalize (Centrifugo.runApi surface.node surface.printF64 headers.contentTypeText body
    s).1.replies = replies at status
  cases replies <;> simp [respond, HttpResponse.badRequest] at status

theorem api_key_iff (closed : surface.auth.insecure = false) (s : σ) :
    (∃ headers query body, (∀ q ∈ query, chars.Allows q) ∧
      surface.handle (.api headers query body) s ≠ (s, .http (.bare 401))) ↔
    surface.auth.key ≠ [] ∧ (chars.Allows surface.auth.key ∧ '&' ∉ surface.auth.key ∨
      ∀ c ∈ surface.auth.key, Visible c ∧ isWhitespace c = false) := by
  rw [and_or_left, ← query_key_iff, ← header_key_iff]
  constructor
  · intro h
    obtain ⟨headers, query, body, stands, served⟩ := h
    have opened : authorized surface.auth headers.authorization query = true := by
      by_contra refused
      rw [handle, apiHandler, closed, Bool.eq_false_iff.mpr refused] at served
      exact served rfl
    rw [authorized, Bool.and_eq_true, Bool.or_eq_true] at opened
    obtain ⟨full, header | given⟩ := opened
    · refine .inr ⟨headers.authorization, ?_⟩
      rw [authorized, full, header]
      rfl
    · refine .inl ⟨query, stands, ?_⟩
      rw [authorized, full, given]
      rfl
  · intro h
    obtain ⟨authorization, query, stands, opened⟩ : ∃ authorization query,
        (∀ q ∈ query, chars.Allows q) ∧ authorized surface.auth authorization query = true := by
      obtain ⟨query, opened⟩ | ⟨authorization, opened⟩ := h
      · exact ⟨none, query, opened⟩
      · exact ⟨authorization, none, nofun, opened⟩
    refine ⟨⟨authorization, none⟩, query, [], stands, fun refused => ?_⟩
    rw [handle, apiHandler, closed, opened] at refused
    exact runApi_ne_bare _ _ _ (congrArg Prod.snd refused)

theorem grpc_iff (locked : surface.grpcKey ≠ []) (s : σ) :
    (∃ authorization call, surface.handle (.grpc authorization call) s ≠
      (s, .unauthenticated)) ↔ ∀ c ∈ surface.grpcKey, Visible c := by
  rw [← grpc_key_iff]
  have full := List.isEmpty_eq_false_iff.mpr locked
  constructor
  · intro h
    obtain ⟨authorization, call, served⟩ := h
    refine ⟨authorization, ?_⟩
    by_contra refused
    rw [handle, grpcCall, full, Bool.eq_false_iff.mpr refused] at served
    exact served rfl
  · intro h
    obtain ⟨authorization, opened⟩ := h
    refine ⟨authorization, .channels, fun refused => ?_⟩
    rw [handle, grpcCall, opened, Bool.or_true] at refused
    cases congrArg Prod.snd refused

/-- A key over HTTP can be used exactly when it is one word, or can stand in a query and has no
ampersand. One over gRPC can be used exactly when it is visible, and whoever logs in with the
password gets a token that opens the API. -/
theorem open_to_holders (chars : QueryChars) (locked : surface.Locked)
    (signs : ∀ token, surface.tokens.encode surface.admin.secret = some token →
      surface.tokens.decode surface.admin.secret token = true ∧ ∀ c ∈ token, Visible c) (s : σ) :
    ((∃ headers query body, (∀ q ∈ query, chars.Allows q) ∧
        surface.handle (.api headers query body) s ≠ (s, .http (.bare 401))) ↔
      surface.auth.key ≠ [] ∧ (chars.Allows surface.auth.key ∧ '&' ∉ surface.auth.key ∨
        ∀ c ∈ surface.auth.key, Visible c ∧ isWhitespace c = false)) ∧
    ((∃ authorization call, surface.handle (.grpc authorization call) s ≠
        (s, .unauthenticated)) ↔ ∀ c ∈ surface.grpcKey, Visible c) ∧
    ∀ token, surface.admin.Asks → genAdminToken surface.tokens surface.admin.secret = some token →
      (∀ query, surface.handle (.adminAuth query
          (passwordKey ++ '=' :: formEncode surface.admin.password)) s =
        (s, .login (some (.token token)))) ∧
      ∀ contentType body, surface.handle
        (.adminApi ⟨some (headerOf ("token ".toList ++ token)), contentType⟩ body) s =
          surface.runApi ⟨some (headerOf ("token ".toList ++ token)), contentType⟩ body s := by
  refine ⟨api_key_iff locked.api s, grpc_iff locked.grpc s, fun token asks signed => ⟨?_, ?_⟩⟩
  · intro query
    rw [handle, adminAuth_encoded asks signed]
  · intro contentType body
    obtain ⟨decoded, visible⟩ := signs token signed
    obtain ⟨enabled, secure, -, secret⟩ := asks
    rw [handle, adminApiHandler, enabled, secure, adminAuthed_token secret visible decoded]
    simp [secret]

end Surface

namespace Sample

def adminToken : Text :=
  ("eyJ0eXAiOiJKV1QiLCJhbGciOiJIUzI1NiJ9.eyJhZG1pbiI6dHJ1ZX0." ++
    "emvct89GULwEkl5Jur3Y2JADuP8piGzUxFG5mantrUU").toList

/-- The token of one secret. -/
def adminTokens : AdminTokens where
  encode secret := if secret = "secret".toList then some adminToken else none
  decode secret token := secret == "secret".toList && token == adminToken

def surface : Surface MemoryNode where
  node := node.api "first"
  printF64 _ := .null
  tokens := adminTokens
  auth := ⟨"key".toList, false⟩
  admin := ⟨true, false, "password".toList, "secret".toList⟩
  grpcKey := "grpc".toList

/-- A guess of the password, and a call with the key. -/
def callers : List (Party × Surface.Request) :=
  [(.stranger, .adminAuth none "password=guess".toList),
    (.holder, .grpc (some (headerOf "apikey grpc".toList)) .channels)]

theorem surface_locked : surface.Locked := ⟨rfl, fun _ => rfl, by decide⟩

end Sample

open Sample in
theorem Surface.strangers_unheard_guess : ∃ after : Visits MemoryNode,
    Steps surface.Step ⟨apiState, [], [], []⟩ callers after ∧ after.known = [] ∧
      after.served = [.grpc ⟨none, some (.channels (surface.node.channels apiState))⟩] := by
  have guess : surface.Foreign [] (.adminAuth none "password=guess".toList) := by
    change formPassword _ _ ≠ _
    decide +kernel
  have run : Steps surface.Step ⟨apiState, [], [], []⟩ callers _ :=
    .cons ⟨fun _ => guess, rfl⟩ (.cons ⟨nofun, rfl⟩ (.nil _))
  obtain ⟨served, known, -⟩ := Surface.strangers_unheard surface_locked run
  refine ⟨_, run, known, ?_⟩
  have answers := congrArg Prod.snd served
  exact answers

namespace Sample

/-- Not the controls, the space, the quote, the hash and the angle brackets. -/
def uriChars : QueryChars where
  allowed c := 33 ≤ c.toNat && c.toNat ≠ 127 && c ∉ ['"', '#', '<', '>']
  name := rfl

/-- A key that no request can have. -/
def spacedSurface : Surface MemoryNode := { surface with auth := ⟨"a b".toList, false⟩ }

theorem spacedSurface_locked : spacedSurface.Locked := ⟨rfl, fun _ => rfl, by decide⟩

theorem signs_adminToken : ∀ token, adminTokens.encode "secret".toList = some token →
    adminTokens.decode "secret".toList token = true ∧ ∀ c ∈ token, Visible c := by
  intro token signed
  have same : adminToken = token := Option.some.inj signed
  subst same
  exact ⟨rfl, forall_mem_of_all rfl⟩

end Sample

open Sample in
theorem Surface.open_to_holders_login :
    (∃ headers query body, (∀ q ∈ query, uriChars.Allows q) ∧
      surface.handle (.api headers query body) apiState ≠ (apiState, .http (.bare 401))) ∧
    (∀ headers query body, (∀ q ∈ query, uriChars.Allows q) →
      spacedSurface.handle (.api headers query body) apiState =
        (apiState, .http (.bare 401))) ∧
    surface.handle (.adminAuth none "password=password".toList) apiState =
      (apiState, .login (some (.token adminToken))) := by
  have asks : surface.admin.Asks := ⟨rfl, rfl, by decide, by decide⟩
  have opens := Surface.open_to_holders uriChars surface_locked signs_adminToken apiState
  have spaced := Surface.open_to_holders uriChars spacedSurface_locked signs_adminToken apiState
  have word : ∀ c ∈ surface.auth.key, Visible c ∧ isWhitespace c = false :=
    forall_mem_of_all (p := fun c => Visible c ∧ isWhitespace c = false) rfl
  refine ⟨opens.1.mpr ⟨by decide, .inr word⟩, fun headers query body stands => ?_,
    (opens.2.2 adminToken asks rfl).1 none⟩
  by_contra served
  obtain ⟨-, allowed | one⟩ := spaced.1.mp ⟨headers, query, body, stands, served⟩
  · exact absurd (allowed.1 ' ' (by decide)) (by decide)
  · exact absurd (one ' ' (by decide)).2 (by decide)

end Centrifugo
