import Sming.Lib.Run
import Sming.Network.Http.HttpParser
import Sming.Network.URL
import Sming.Wiring.WHashMap

/-!
# Choosing the resource of a request

Embedding of the routing of `Sming/SmingCore/Network/Http/HttpServerConnection.cpp`: every piece of the request target
that the parser reports goes through the constructor of `URL` and then to `onPath`, which stores it and looks for a
resource. The pieces are not joined, so the last one decides.

`resource` is a member that no function clears, so a request that has no entry in the tree keeps the one that an
earlier request selected.
-/

namespace Sming.Network.Http
open Sming.Lib Sming.Wiring HttpParser Scan Option

/-- A handler of the resource tree (C++ `HttpResource*`). -/
abbrev ResourceId := Nat

/-- The fields of `HttpServerConnection` that the routing uses, and `request.uri`. -/
structure HttpServerConnection where
  resourceTree : Option (HashMap String (Option ResourceId)) := none
  uri : URL := { port := some 80 }
  resource : Option ResourceId := none

namespace HttpServerConnection

def onPath (c : HttpServerConnection) (uri : URL) : HttpServerConnection × Int :=
  match c.resourceTree with
  | none => (c, -1)
  | some tree =>
    let c := { c with uri := uri }
    if tree.contains uri.path then ({ c with resource := tree.value uri.path none }, 0)
    else if tree.contains "*" then ({ c with resource := tree.value "*" none }, 0)
    else (c, 0)

/-- The pieces of a target one after the other; `none` if the constructor of `URL` aborts. A piece
that is answered with an error stops the parser (C++ `staticOnPath`). -/
def onUrls : HttpServerConnection → List String → Option HttpServerConnection
  | c, [] => some c
  | c, piece :: pieces =>
    (URL.parse piece).bind fun uri =>
      if (c.onPath uri).2 = 0 then onUrls (c.onPath uri).1 pieces else some (c.onPath uri).1

/-- What a connection has stored when a request has arrived in the given segments. -/
def receive (c : HttpServerConnection) (segments : List (List Char)) :
    Option HttpServerConnection := c.onUrls (executeAll {} segments)

/-- However the request is cut, the URL and the resource are those of the request in one segment. -/
def SegmentationInvariant (c : HttpServerConnection) (input : List Char) : Prop :=
  ∀ segments : List (List Char), segments.flatten = input → (∀ data ∈ segments, data ≠ []) →
    ∀ whole, c.receive [input] = some whole →
      ∃ r, c.receive segments = some r ∧ r.uri = whole.uri ∧ r.resource = whole.resource

variable {c : HttpServerConnection}

lemma onPath_of_tree {tree} (h : c.resourceTree = some tree) (uri : URL) :
    (c.onPath uri).2 = 0 ∧ (c.onPath uri).1.uri = uri ∧ (c.onPath uri).1.resourceTree = some tree := by
  rw [onPath, h]
  simp only
  repeat' split
  all_goals exact ⟨rfl, rfl, rfl⟩

lemma uri_of_onUrls_pair {r : HttpServerConnection} {tree} (h : c.resourceTree = some tree)
    {a b : String} (e : c.onUrls [a, b] = some r) : URL.parse b = some r.uri := by
  rw [onUrls] at e
  obtain ⟨u, -, e⟩ := bind_eq_some_iff.mp e
  obtain ⟨ok, -, tree'⟩ := onPath_of_tree h u
  rw [if_pos ok, onUrls] at e
  obtain ⟨v, hv, e⟩ := bind_eq_some_iff.mp e
  obtain ⟨ok', uri, -⟩ := onPath_of_tree tree' v
  rw [if_pos ok', onUrls] at e
  cases e
  rw [hv, uri]

lemma onUrls_singleton {tree} (h : c.resourceTree = some tree) {a : String} {u : URL} (e : URL.parse a = some u) :
    ∃ r, c.onUrls [a] = some r ∧ r.uri = u := by
  obtain ⟨ok, uri, -⟩ := onPath_of_tree h u
  refine ⟨(c.onPath u).1, ?_, uri⟩
  rw [onUrls, e, bind_some, if_pos ok, onUrls]

/-- A request is taken as in one segment if no segment ends inside its target or right behind it; it is taken so under
every segmentation only if the constructor of `URL` has no value for the target. -/
theorem receive_segments_iff {c : HttpServerConnection} {tree input url}
    (h : c.resourceTree = some tree) (ht : target input = some url) :
    (∀ segments : List (List Char), segments.flatten = input → Unbroken segments →
      c.receive segments = c.receive [input]) ∧ (c.SegmentationInvariant input ↔ URL.parse url = none) := by
  refine ⟨?_, ?_⟩
  · rintro segments rfl unbroken
    rw [receive, receive, executeAll_of_unbroken ht unbroken, executeAll_of_target ht]
  constructor
  · intro inv
    by_contra ne
    obtain ⟨u, hu⟩ := ne_none_iff_exists'.mp ne
    obtain ⟨whole, hw, rfl⟩ := onUrls_singleton h hu
    rw [← executeAll_of_target ht] at hw
    obtain ⟨t, pre, b, post, rfl, rfl, -, inside, done⟩ := target_split ht
    obtain rfl | ⟨cs, d, rfl⟩ := List.eq_nil_or_concat' pre
    · exact absurd rfl inside.ne_nil
    -- a border behind the target: its URL would be the one of the empty text
    obtain ⟨r, hr, uri, -⟩ := inv [cs ++ [d], b :: post] (by simp) (by simp) whole hw
    rw [receive, executeAll_border_behind post inside done] at hr
    have empty := uri_of_onUrls_pair h hr
    rw [URL.parse_empty, uri] at empty
    have protocol : whole.uri.protocol = "" := by rw [← Option.some.inj empty]
    -- and a border before its last byte: it would be the one of that byte
    have byte : whole.uri.protocol = "http" := by
      obtain rfl | ⟨t', -, rfl, inside'⟩ := inside.last
      · exact URL.protocol_of_parse_short (by simp) (by simp) hu
      · obtain ⟨r', hr', uri', -⟩ :=
          inv [cs, d :: b :: post] (by simp) (by simp [inside'.ne_nil]) whole hw
        rw [receive, executeAll_border_inside post inside' inside done] at hr'
        have last := uri_of_onUrls_pair h hr'
        rw [uri'] at last
        exact URL.protocol_of_parse_short (by simp) (by simp) last
    rw [protocol] at byte
    exact absurd byte (by decide)
  · intro none segments _ _ whole hw
    rw [receive, executeAll_of_target ht, onUrls, none] at hw
    cases hw

def twoResources : HttpServerConnection where
  resourceTree := some ((({} : HashMap String (Option ResourceId)).set "/index" (some 1)).set "*" (some 2))

theorem receive_segments_iff_index :
    twoResources.receive ["GE".toList, "T /index H".toList, "TTP/1.1\r\n".toList] =
        twoResources.receive ["GET /index HTTP/1.1\r\n".toList] ∧
      ¬ twoResources.SegmentationInvariant "GET /index HTTP/1.1\r\n".toList := by
  have ht : target "GET /index HTTP/1.1\r\n".toList = some "/index" := by decide
  obtain ⟨unbroken, always⟩ := @receive_segments_iff twoResources _ _ _ rfl ht
  exact ⟨unbroken _ (by decide) (by decide +kernel), fun inv => absurd (always.mp inv) (by decide)⟩

/-- `/in` and `dex` in two segments select the handler for everything else. -/
theorem split_target_misrouted :
    ¬ ∀ (c : HttpServerConnection) (input : List Char), c.resourceTree ≠ none →
      (target input).isSome → c.SegmentationInvariant input := by
  intro h
  have inv := h twoResources "GET /index HTTP/1.1\r\n".toList nofun (by decide)
  obtain ⟨r, hr, -, resource⟩ := inv ["GET /in".toList, "dex HTTP/1.1\r\n".toList] (by decide)
    (by decide) _ rfl
  cases hr
  exact absurd resource (by decide)

/-! ### Earlier requests -/

/-- The resource a path stands for: its own entry, else the one for everything else. -/
def route (tree : HashMap String (Option ResourceId)) (path : String) : Option ResourceId :=
  if tree.contains path then tree.value path none
  else if tree.contains "*" then tree.value "*" none
  else none


lemma onPath_resource {tree} (h : c.resourceTree = some tree) (uri : URL) :
    (c.onPath uri).1.resource =
      if tree.contains uri.path ∨ tree.contains "*" then route tree uri.path else c.resource := by
  rw [onPath, h, route]
  simp only
  repeat' split
  all_goals simp_all

lemma onUrls_append {tree} (h : c.resourceTree = some tree) (front : List String) (pieces : List String) :
    c.onUrls (front ++ pieces) = (c.onUrls front).bind fun b => b.onUrls pieces := by
  induction front generalizing c with
  | nil => rfl
  | cons piece front ih =>
    rw [List.cons_append, onUrls, onUrls, bind_assoc]
    apply Option.bind_congr
    intro uri _
    obtain ⟨ok, -, tree'⟩ := onPath_of_tree h uri
    rw [if_pos ok, if_pos ok, ih tree']

lemma resourceTree_of_onUrls {d : HttpServerConnection} {tree pieces}
    (h : c.resourceTree = some tree) (e : c.onUrls pieces = some d) : d.resourceTree = some tree := by
  induction pieces generalizing c with
  | nil =>
    cases e
    exact h
  | cons piece pieces ih =>
    rw [onUrls] at e
    obtain ⟨uri, -, e⟩ := bind_eq_some_iff.mp e
    obtain ⟨ok, -, tree'⟩ := onPath_of_tree h uri
    rw [if_pos ok] at e
    exact ih tree' e

lemma resourceTree_of_run {d : HttpServerConnection} {tree history}
    (r : Run onUrls Always c history d) (h : c.resourceTree = some tree) : d.resourceTree = some tree := by
  refine @Run.invariant _ _ _ _ (fun d => d.resourceTree = some tree) _ _ _ r h ?_
  intro t pieces u tree' _ e
  exact resourceTree_of_onUrls tree' e

lemma serve_resource {b : HttpServerConnection} {tree front last uri}
    (h : c.resourceTree = some tree) (e : c.onUrls front = some b) (parse : URL.parse last = some uri) :
    ∃ d, c.onUrls (front ++ [last]) = some d ∧ d.resource =
      if tree.contains uri.path ∨ tree.contains "*" then route tree uri.path else b.resource := by
  have tree' := resourceTree_of_onUrls h e
  obtain ⟨ok, -, -⟩ := onPath_of_tree tree' uri
  refine ⟨(b.onPath uri).1, ?_, onPath_resource tree' uri⟩
  rw [onUrls_append h, e, bind_some, onUrls, parse, bind_some, if_pos ok, onUrls]

/-- Two runs that end with the same request select the resource of its path exactly if the tree has an entry for it or
for everything else, or neither connection had a resource when the path came. -/
theorem select_eq_route_iff {tree history₁ history₂} {c₁ c₂ b₁ b₂ : HttpServerConnection}
    {front last uri} (r₁ : Run onUrls Always { resourceTree := some tree } history₁ c₁)
    (r₂ : Run onUrls Always { resourceTree := some tree } history₂ c₂)
    (e₁ : c₁.onUrls front = some b₁) (e₂ : c₂.onUrls front = some b₂) (parse : URL.parse last = some uri) :
    (∃ d₁ d₂, c₁.onUrls (front ++ [last]) = some d₁ ∧ c₂.onUrls (front ++ [last]) = some d₂ ∧
        d₁.resource = route tree uri.path ∧ d₂.resource = route tree uri.path) ↔
      tree.contains uri.path ∨ tree.contains "*" ∨ (b₁.resource = none ∧ b₂.resource = none) := by
  obtain ⟨d₁, s₁, select₁⟩ := serve_resource (resourceTree_of_run r₁ rfl) e₁ parse
  obtain ⟨d₂, s₂, select₂⟩ := serve_resource (resourceTree_of_run r₂ rfl) e₂ parse
  have selected : (∃ d₁ d₂, c₁.onUrls (front ++ [last]) = some d₁ ∧ c₂.onUrls (front ++ [last]) = some d₂ ∧
      d₁.resource = route tree uri.path ∧ d₂.resource = route tree uri.path) ↔
      d₁.resource = route tree uri.path ∧ d₂.resource = route tree uri.path := by
    constructor
    · rintro ⟨_, _, t₁, t₂, h⟩
      rw [s₁] at t₁
      rw [s₂] at t₂
      cases t₁
      cases t₂
      exact h
    · exact fun h => ⟨d₁, d₂, s₁, s₂, h⟩
  rw [selected, select₁, select₂]
  by_cases hit : tree.contains uri.path ∨ tree.contains "*"
  · rw [if_pos hit, if_pos hit]
    exact ⟨fun _ => or_assoc.mp (.inl hit), fun _ => ⟨rfl, rfl⟩⟩
  · -- no entry at all: the path stands for no resource
    obtain ⟨path, star⟩ := not_or.mp hit
    rw [if_neg hit, if_neg hit, route, if_neg path, if_neg star]
    constructor
    · exact fun h => .inr (.inr h)
    · rintro (h | h | h)
      · exact absurd h path
      · exact absurd h star
      · exact h

def oneResource : HashMap String (Option ResourceId) :=
  ({} : HashMap String (Option ResourceId)).set "/admin" (some 1)

theorem select_eq_route_iff_admin :
    ∃ c, Run onUrls Always { resourceTree := some oneResource } [["/admin"]] c ∧
      ∃ d₁ d₂, c.onUrls ["/admin"] = some d₁ ∧
        onUrls { resourceTree := some oneResource } ["/admin"] = some d₂ ∧
        d₁.resource = route oneResource "/admin" ∧ d₂.resource = route oneResource "/admin" := by
  obtain ⟨c, done⟩ := isSome_iff_exists.mp
    (show (exec onUrls Always { resourceTree := some oneResource } [["/admin"]]).isSome by decide +kernel)
  refine ⟨c, exec_run done, ?_⟩
  exact (@select_eq_route_iff _ _ _ _ _ _ _ [] "/admin" _ (exec_run done) .nil rfl rfl
    (show URL.parse "/admin" = some { protocol := "http", port := some 80, path := "/admin" } by
      decide +kernel)).mpr (.inl (by decide +kernel))

/-- After a request for `/admin`, one for a path without an entry goes to the handler of `/admin`. -/
theorem unknown_path_keeps_resource :
    ¬ ∀ tree history₁ history₂ (c₁ c₂ d₁ d₂ : HttpServerConnection) target uri,
      Run onUrls Always { resourceTree := some tree } history₁ c₁ →
      Run onUrls Always { resourceTree := some tree } history₂ c₂ →
      URL.parse target = some uri → c₁.onUrls [target] = some d₁ → c₂.onUrls [target] = some d₂ →
      d₁.resource = d₂.resource := by
  intro h
  obtain ⟨c, done, serves⟩ : ∃ c, exec onUrls Always { resourceTree := some oneResource } [["/admin"]] =
      some c ∧ (c.onUrls ["/none"]).map (·.resource) = some (some 1) := exists_exec (by decide +kernel)
  obtain ⟨d, st, resource⟩ := map_eq_some_iff.mp serves
  have same := h oneResource _ _ c _ d _ "/none" _ (exec_run done) .nil rfl st rfl
  rw [resource] at same
  revert same
  decide +kernel

end HttpServerConnection

end Sming.Network.Http
