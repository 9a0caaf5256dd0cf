import Mathlib.Data.Finset.Card
import Sming.Network.Http.HttpTarget

/-!
# The paths of a server

Embedding of the three `addPath` functions of `Sming/SmingCore/Network/HttpServer.cpp`. The one that takes
a callback drops a slash at the end of the path, the other two keep it, and the connection looks for the path
as it was requested.

`due` is the call whose resource a path should have, by the paths as they were registered; `found` is the one whose
resource the tree has, by the paths as they were stored. They agree if the calls are `Proper`, which is a matter of
their order: a callback for the path with a slash behind it may not come last.
-/

namespace Sming.Network.Http
open Sming.Lib Sming.Wiring Sming.Wiring.WString List Option String HttpServerConnection

/-- The calls of `addPath`. The first two make a resource for their delegate, the third takes one, which may be
`nullptr`. -/
inductive AddPath where
  | callback (path : String) (resource : ResourceId)
  | requestComplete (path : String) (resource : ResourceId)
  | resource (path : String) (resource : Option ResourceId)

namespace AddPath

def path : AddPath → String
  | callback path _ => path
  | requestComplete path _ => path
  | resource path _ => path

def handler : AddPath → Option ResourceId
  | callback _ r => some r
  | requestComplete _ r => some r
  | resource _ r => r

def key : AddPath → String
  | callback path _ =>
    if 1 < path.length ∧ path.toList.getLast? = some '/' then substring path 0 (path.length - 1) else path
  | requestComplete path _ => path
  | resource path _ => path

/-- The path loses the slash at its end. -/
def drops : AddPath → Bool
  | callback path _ => 1 < path.length && path.toList.getLast? == some '/'
  | _ => false

/-- A callback for the path with a slash behind it. -/
def Onto (p : String) (call : AddPath) : Prop := ∃ r, call = callback (p ++ "/") r

end AddPath

abbrev ResourceTree := HashMap String (Option ResourceId)

/-- `resourceTree[path] = resource`; `none` is the 65536th path. -/
def addPath (tree : ResourceTree) (call : AddPath) : Option ResourceTree :=
  tree.update call.key none fun _ => call.handler

def treeOf (calls : List AddPath) : Option ResourceTree := calls.foldlM addPath {}

/-- The last call with the path `p`, where `f` is the path of a call. -/
def lastCall (f : AddPath → String) (calls : List AddPath) (p : String) : Option AddPath :=
  calls.reverse.find? fun call => f call == p

/-- The last registration made with the path, else the last one made with `*`. -/
def due (calls : List AddPath) (path : String) : Option AddPath :=
  (lastCall AddPath.path calls path).or (lastCall AddPath.path calls "*")

def found (calls : List AddPath) (path : String) : Option AddPath :=
  (lastCall AddPath.key calls path).or (lastCall AddPath.key calls "*")

def keys (calls : List AddPath) : Finset String := (calls.map AddPath.key).toFinset

variable {calls : List AddPath} {tree : ResourceTree} {f : AddPath → String} {p : String}

lemma lastCall_append (front back : List AddPath) :
    lastCall f (front ++ back) p = (lastCall f back p).or (lastCall f front p) := by
  rw [lastCall, reverse_append, find?_append]
  rfl

lemma lastCall_concat (call : AddPath) :
    lastCall f (calls ++ [call]) p = if f call = p then some call else lastCall f calls p := by
  rw [lastCall_append, lastCall, reverse_singleton, find?_cons]
  by_cases same : f call = p
  · rw [beq_iff_eq.mpr same, if_pos same]
    rfl
  · rw [beq_false_of_ne same, if_neg same]
    rfl

lemma lastCall_eq_none_iff : lastCall f calls p = none ↔ ∀ call ∈ calls, f call ≠ p := by
  simp [lastCall, find?_eq_none]

lemma lastCall_of_back {front back : List AddPath} {call : AddPath} (same : f call = p)
    (others : ∀ later ∈ back, f later ≠ p) : lastCall f (front ++ call :: back) p = some call := by
  rw [append_cons, lastCall_append, lastCall_eq_none_iff.mpr others, Option.none_or, lastCall_concat, if_pos same]

lemma keys_concat (call : AddPath) : keys (calls ++ [call]) = insert call.key (keys calls) := by
  rw [keys, map_append, toFinset_append, Finset.union_comm]
  rfl

lemma treeOf_concat (call : AddPath) : treeOf (calls ++ [call]) = (treeOf calls).bind (addPath · call) := by
  rw [treeOf, foldlM_append]
  apply Option.bind_congr
  intro tree _
  exact bind_fun_some _

/-- The tree has the resource of the last call for every stored path. -/
structure Holds (tree : ResourceTree) (calls : List AddPath) : Prop where
  contains : ∀ p, tree.contains p = (lastCall AddPath.key calls p).isSome
  value : ∀ p, tree.value p none = (lastCall AddPath.key calls p).elim none AddPath.handler
  paths : (tree.entries.map Prod.fst).toFinset = keys calls

lemma Holds.count (h : Holds tree calls) : tree.count = (keys calls).card := by
  rw [← h.paths, toFinset_card_of_nodup tree.nodup, List.length_map]
  rfl

lemma Holds.contains_iff (h : Holds tree calls) : tree.contains p = true ↔ p ∈ keys calls := by
  rw [HashMap.contains_iff, ← h.paths, List.mem_toFinset]

lemma Holds.addPath (h : Holds tree calls) (call : AddPath) :
    Holds (tree.set call.key call.handler) (calls ++ [call]) where
  contains p := by
    rw [HashMap.contains_set, lastCall_concat, h.contains]
    by_cases same : call.key = p
    · rw [if_pos same, decide_eq_true same.symm]
      rfl
    · rw [if_neg same, decide_eq_false (Ne.symm same)]
      rfl
  value p := by
    rw [HashMap.value_set, lastCall_concat, h.value]
    by_cases same : call.key = p
    · rw [if_pos same, if_pos same.symm]
      rfl
    · rw [if_neg same, if_neg (Ne.symm same)]
  paths := by
    ext q
    rw [keys_concat, List.mem_toFinset, ← HashMap.contains_iff, HashMap.contains_set, Finset.mem_insert,
      ← h.contains_iff, Bool.or_eq_true, decide_eq_true_iff]

/-- As long as there is room, every call is stored. -/
lemma treeOf_holds (room : (keys calls).card < 2 ^ 16) : ∃ tree, treeOf calls = some tree ∧ Holds tree calls := by
  induction calls using reverseRecOn with
  | nil => exact ⟨{}, rfl, fun _ => rfl, fun _ => rfl, rfl⟩
  | append_singleton calls call ih =>
    rw [keys_concat] at room
    obtain ⟨tree, e, h⟩ := ih ((Finset.card_le_card (Finset.subset_insert _ _)).trans_lt room)
    have fits : tree.contains call.key ∨ tree.count + 1 < 2 ^ 16 := by
      rw [h.contains_iff, h.count]
      by_cases known : call.key ∈ keys calls
      · exact .inl known
      · rw [Finset.card_insert_of_notMem known] at room
        exact .inr room
    refine ⟨_, ?_, h.addPath call⟩
    rw [treeOf_concat, e, bind_some, Http.addPath, HashMap.update, if_pos fits]

lemma Holds.onPath (h : Holds tree calls) {c : HttpServerConnection} (ht : c.resourceTree = some tree) (uri : URL) :
    (c.onPath uri).1.resource = (found calls uri.path).elim c.resource AddPath.handler := by
  rw [onPath_resource ht, route, h.contains, h.contains, h.value, h.value, found]
  cases lastCall AddPath.key calls uri.path with
  | some call => rfl
  | none =>
    cases lastCall AddPath.key calls "*" with
    | some call => rfl
    | none => rfl

/-- A request with the target `target` is served by the resource that is due for the text in front of the
question mark, on every connection. -/
def ServesTarget (calls : List AddPath) (target : List Char) : Prop :=
  ∀ call, due calls (ofList (before '?' target)) = some call → ∃ tree, treeOf calls = some tree ∧
    ∀ c : HttpServerConnection, c.resourceTree = some tree →
      ∃ d, c.onUrls [ofList target] = some d ∧ d.resource = call.handler

/-! ### The order of the calls -/

/-- `substring`, which drops the slash, would also stop at a NUL. -/
def PathsNulFree (calls : List AddPath) : Prop := ∀ call ∈ calls, '\x00' ∉ call.path.toList

/-- The last registration with the path keeps it, and no callback for the path with a slash behind it comes
later. -/
def Kept (calls : List AddPath) (p : String) : Prop :=
  ∃ front call back, calls = front ++ call :: back ∧ call.path = p ∧ call.drops = false ∧
    ∀ later ∈ back, later.path ≠ p ∧ ¬ later.Onto p

/-- The last registration with the path is kept; or there is none, no callback is stored under it, and the last
registration with `*` is kept. -/
def Proper (calls : List AddPath) (p : String) : Prop :=
  Kept calls p ∨ (∀ call ∈ calls, call.path ≠ p ∧ ¬ call.Onto p) ∧ Kept calls "*"

namespace AddPath

lemma Onto.path {call : AddPath} (h : call.Onto p) : call.path = p ++ "/" := by
  obtain ⟨r, rfl⟩ := h
  rfl

lemma key_callback_iff {path : String} {r : ResourceId} (nul : '\x00' ∉ path.toList) (ne : p ≠ "") :
    (callback path r).key = p ↔ path = p ∧ (callback path r).drops = false ∨ path = p ++ "/" := by
  by_cases dropped : 1 < path.length ∧ path.toList.getLast? = some '/'
  · obtain ⟨cs, parts⟩ := getLast?_eq_some_iff.mp dropped.2
    have whole : path = ofList (cs ++ ['/']) := by rw [← parts, ofList_toList]
    have length : path.length - 1 = 0 + cs.length := by
      rw [whole, String.length_ofList, List.length_append]
      simp
    have free : '\x00' ∉ cs := fun mem => nul (by rw [parts]; exact mem_append_left _ mem)
    have short : (callback path r).key = ofList cs := by
      rw [key, if_pos dropped, length, whole, substring_eq, drop_zero, take_left, before_of_not_mem free]
    have loses : (callback path r).drops = true := by simp [drops, dropped]
    rw [short, loses, whole, ← String.toList_inj, ← @String.toList_inj _ (p ++ "/")]
    simp
  · have keeps : (callback path r).drops = false := by
      simpa [drops] using dropped
    rw [key, if_neg dropped, keeps, and_iff_left rfl]
    refine ⟨.inl, ?_⟩
    rintro (same | rfl)
    · exact same
    · have some : 0 < p.length := Nat.pos_of_ne_zero fun none => ne (String.length_eq_zero_iff.mp none)
      refine absurd ⟨?_, by simp⟩ dropped
      rw [String.length_append]
      exact Nat.succ_lt_succ some

/-- Under a path without NUL are stored: what was registered with it and keeps it, and callbacks for it with a slash
behind. -/
lemma key_eq_iff {call : AddPath} (nul : '\x00' ∉ call.path.toList) (ne : p ≠ "") :
    call.key = p ↔ call.path = p ∧ call.drops = false ∨ call.Onto p := by
  cases call with
  | callback path r =>
    refine (key_callback_iff (r := r) nul ne).trans (or_congr Iff.rfl ⟨?_, fun onto => onto.path⟩)
    rintro rfl
    exact ⟨r, rfl⟩
  | requestComplete path r | resource path r =>
    refine ⟨fun same => .inl ⟨same, rfl⟩, ?_⟩
    rintro (⟨same, -⟩ | ⟨r, e⟩)
    · exact same
    · cases e

end AddPath

/-- A kept path is stored under itself last. -/
lemma Kept.lastCall (nul : PathsNulFree calls) (ne : p ≠ "") (kept : Kept calls p) :
    ∃ call, lastCall AddPath.path calls p = some call ∧ lastCall AddPath.key calls p = some call := by
  obtain ⟨front, call, back, rfl, path, keeps, later⟩ := kept
  have inside : call ∈ front ++ call :: back := mem_append_right _ mem_cons_self
  refine ⟨call, lastCall_of_back path fun other mem => (later other mem).1, ?_⟩
  refine lastCall_of_back ((AddPath.key_eq_iff (nul call inside) ne).mpr (.inl ⟨path, keeps⟩)) fun other mem key => ?_
  have inside' : other ∈ front ++ call :: back := mem_append_right _ (mem_cons_of_mem _ mem)
  rcases (AddPath.key_eq_iff (nul other inside') ne).mp key with ⟨path', -⟩ | onto
  · exact (later other mem).1 path'
  · exact (later other mem).2 onto

/-- Of proper calls the one that is due for a path is the one that is found. -/
lemma Proper.found_eq (nul : PathsNulFree calls) (ne : p ≠ "") (proper : Proper calls p) : found calls p = due calls p := by
  rw [found, due]
  rcases proper with kept | ⟨absent, kept⟩
  · obtain ⟨call, path, key⟩ := kept.lastCall nul ne
    rw [path, key, Option.some_or, Option.some_or]
  · obtain ⟨call, path, key⟩ := kept.lastCall nul (by decide)
    have empty : lastCall AddPath.key calls p = none := by
      refine lastCall_eq_none_iff.mpr fun c mem key => ?_
      rcases (AddPath.key_eq_iff (nul c mem) ne).mp key with ⟨path, -⟩ | onto
      · exact (absent c mem).1 path
      · exact (absent c mem).2 onto
    rw [lastCall_eq_none_iff.mpr fun c mem => (absent c mem).1, empty, path, key]

/-! ### Requests -/

lemma onUrls_one {c : HttpServerConnection} {uri : URL} {s : String} (ht : c.resourceTree = some tree)
    (parsed : URL.parse s = some uri) : c.onUrls [s] = some (c.onPath uri).1 := by
  obtain ⟨ok, -⟩ := onPath_of_tree ht uri
  rw [onUrls, parsed, bind_some, if_pos ok, onUrls]

end Sming.Network.Http
