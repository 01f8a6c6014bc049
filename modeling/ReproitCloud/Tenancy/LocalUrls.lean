import Mathlib.Data.Option.Basic
import ReproitCloud.Tenancy.Store

/-!
# Addresses of local databases

The local provider makes every organization a database in one PostgreSQL.  It knows the
server by the address of some database there, `scheme://authority/name?query`, and reaches
any other by putting another name in place of that one (`swapDb`).  The name and the query
may be missing.

A `ServerUrl` is such an address taken apart.  No part but the query has a slash or a
question mark in it, so its text has one reading (`ServerUrl.text_injective`).

* `swapDb_text`: the swap is the change of the name and of nothing else.
* `local_databases_apart`: the addresses of two organizations name two databases of the
  configured server, and neither is the maintenance database.
-/

namespace ReproitCloud

open Lib

/-! ## Addresses taken apart -/

/-- Neither a slash nor a question mark. -/
def Unmarked (cs : List Char) : Prop := '/' ∉ cs ∧ '?' ∉ cs

instance (cs : List Char) : Decidable (Unmarked cs) := inferInstanceAs (Decidable (_ ∧ _))

/-- A part of an address that no mark ends early. -/
structure Segment where
  text : String
  unmarked : Unmarked text.toList

/-- `scheme://authority`, maybe with `/name` and with `?query`. -/
structure ServerUrl where
  scheme : Segment
  authority : Segment
  name : Option Segment
  query : Option String

namespace ServerUrl

/-- What stands before the name. -/
def server (u : ServerUrl) : List Char :=
  u.scheme.text.toList ++ ':' :: '/' :: '/' :: u.authority.text.toList

/-- The name after its slash. -/
def path (u : ServerUrl) : List Char :=
  (u.name.map fun d => '/' :: d.text.toList).getD []

/-- The query after its question mark. -/
def search (u : ServerUrl) : List Char :=
  (u.query.map fun q => '?' :: q.toList).getD []

/-- The address. -/
def text (u : ServerUrl) : String := String.ofList (u.server ++ u.path ++ u.search)

/-- The address of another database of the server. -/
def named (u : ServerUrl) (d : Segment) : ServerUrl := { u with name := some d }

@[simp] theorem server_named (u : ServerUrl) (d : Segment) : (u.named d).server = u.server := rfl

@[simp] theorem path_named (u : ServerUrl) (d : Segment) :
    (u.named d).path = '/' :: d.text.toList := rfl

@[simp] theorem search_named (u : ServerUrl) (d : Segment) : (u.named d).search = u.search := rfl

@[simp] theorem named_named (u : ServerUrl) (d d' : Segment) :
    (u.named d).named d' = u.named d' := rfl

end ServerUrl

/-! ## Where the name starts -/

/-- The last slash is the one that no other follows. -/
theorem lastSlash_append (xs : List Char) {ys : List Char} (h : '/' ∉ ys) :
    lastSlash (xs ++ '/' :: ys) = some xs.length := by
  have hreverse : (xs ++ '/' :: ys).reverse = ys.reverse ++ '/' :: xs.reverse := by simp
  have hfirst : (ys.reverse ++ '/' :: xs.reverse).idxOf? '/' = some ys.length := by
    rw [List.idxOf?_eq_some_iff]
    refine ⟨by simp, by simp, fun j hj => ?_⟩
    have hj' : j < ys.reverse.length := by simpa using hj
    rw [List.getElem_append_left hj']
    intro hslash
    exact h (List.mem_reverse.1 (hslash ▸ List.getElem_mem hj'))
  rw [lastSlash, hreverse, hfirst, Option.map_some]
  congr 1
  simp

/-- Two slashes are found where the first slash is. -/
theorem doubleSlash_append {xs : List Char} (h : '/' ∉ xs) (ys : List Char) :
    doubleSlash (xs ++ '/' :: '/' :: ys) = some xs.length := by
  induction xs with
  | nil => simp [doubleSlash]
  | cons x xs ih =>
    rw [List.mem_cons, not_or] at h
    rw [List.cons_append, doubleSlash, if_neg (by simp [Ne.symm h.1]), ih h.2]
    rfl

namespace ServerUrl

theorem doubleSlash_server (u : ServerUrl) (rest : List Char) :
    doubleSlash (u.server ++ rest) = some (u.scheme.text.toList.length + 1) := by
  have hscheme : '/' ∉ u.scheme.text.toList ++ [':'] := by
    simpa using u.scheme.unmarked.1
  have hfound := doubleSlash_append hscheme (u.authority.text.toList ++ rest)
  simpa [server] using hfound

/-- Nothing before the query has a question mark. -/
theorem questionMark_not_mem (u : ServerUrl) : '?' ∉ u.server ++ u.path := by
  have hscheme := u.scheme.unmarked.2
  have hauthority := u.authority.unmarked.2
  cases hname : u.name with
  | none => simp [server, path, hname, hscheme, hauthority]
  | some d =>
    have hd := d.unmarked.2
    simp [server, path, hname, hscheme, hauthority, hd]

/-- With or without a name, the server is what is found. -/
theorem serverOf_text (u : ServerUrl) : serverOf (u.server ++ u.path) = u.server := by
  have htwo := u.doubleSlash_server u.path
  cases hname : u.name with
  | none =>
    -- the last slash is the second of the two
    have hpath : u.path = [] := by simp [path, hname]
    have hserver : u.server =
        (u.scheme.text.toList ++ [':', '/']) ++ '/' :: u.authority.text.toList := by
      simp [server]
    have hlast : lastSlash u.server = some (u.scheme.text.toList.length + 2) := by
      rw [hserver, lastSlash_append _ u.authority.unmarked.1]
      simp
    rw [hpath, List.append_nil] at htwo ⊢
    rw [serverOf, hlast, htwo]
    simp
  | some d =>
    have hpath : u.path = '/' :: d.text.toList := by simp [path, hname]
    have hlast : lastSlash (u.server ++ u.path) = some u.server.length := by
      rw [hpath, lastSlash_append _ d.unmarked.1]
    have hafter : u.scheme.text.toList.length + 1 + 1 < u.server.length := by
      simp [server]
      omega
    rw [serverOf, hlast, htwo]
    simp [hafter]

end ServerUrl

/-! ## The swap -/

/-- A text is cut at its first question mark. -/
theorem cut_at_questionMark {xs ys : List Char} (h : '?' ∉ xs)
    (hys : ys = [] ∨ ys.head? = some '?') :
    (xs ++ ys).takeWhile (fun c => c != '?') = xs ∧
      (xs ++ ys).dropWhile (fun c => c != '?') = ys := by
  have hxs : ∀ c ∈ xs, (c != '?') = true := by
    intro c hc
    simp only [bne_iff_ne, ne_eq]
    rintro rfl
    exact h hc
  rw [List.takeWhile_append_of_pos hxs, List.dropWhile_append_of_pos hxs]
  cases ys with
  | nil => simp
  | cons y ys =>
    have hy : y = '?' := by simpa using hys
    simp [hy]

theorem ServerUrl.cut_text (u : ServerUrl) :
    u.text.toList.takeWhile (fun c => c != '?') = u.server ++ u.path ∧
      u.text.toList.dropWhile (fun c => c != '?') = u.search := by
  rw [text, String.toList_ofList]
  refine cut_at_questionMark u.questionMark_not_mem ?_
  cases hquery : u.query <;> simp [search, hquery]

/-- The swap puts the name in place of the one there, or after the server if there is none. -/
theorem swapDb_text (u : ServerUrl) (d : Segment) : swapDb u.text d.text = (u.named d).text := by
  rw [swapDb, u.cut_text.1, u.cut_text.2, u.serverOf_text]
  simp [ServerUrl.text]

/-! ## One reading -/

theorem Segment.ext_chars {a b : Segment} (h : a.text.toList = b.text.toList) : a = b := by
  cases a
  cases b
  congr
  exact String.toList_injective h

namespace ServerUrl

theorem server_injective {u v : ServerUrl} (h : u.server = v.server) :
    u.scheme = v.scheme ∧ u.authority = v.authority := by
  have hsplit : ∀ w : ServerUrl, splitOnce '/' w.server =
      some (w.scheme.text.toList ++ [':'], '/' :: w.authority.text.toList) := by
    intro w
    have hscheme : '/' ∉ w.scheme.text.toList ++ [':'] := by simpa using w.scheme.unmarked.1
    simpa [server] using splitOnce_append hscheme ('/' :: w.authority.text.toList)
  have hparts := Option.some.inj ((hsplit u).symm.trans (h ▸ hsplit v))
  obtain ⟨hscheme, hauthority⟩ := Prod.mk.inj hparts
  exact ⟨Segment.ext_chars (List.append_cancel_right hscheme),
    Segment.ext_chars (List.cons.inj hauthority).2⟩

theorem path_injective {u v : ServerUrl} (h : u.path = v.path) : u.name = v.name := by
  cases hu : u.name with
  | none =>
    cases hv : v.name with
    | none => rfl
    | some d => simp [path, hu, hv] at h
  | some d =>
    cases hv : v.name with
    | none => simp [path, hu, hv] at h
    | some d' =>
      simp only [path, hu, hv, Option.map_some, Option.getD_some, List.cons.injEq, true_and] at h
      rw [Segment.ext_chars h]

theorem search_injective {u v : ServerUrl} (h : u.search = v.search) : u.query = v.query := by
  cases hu : u.query with
  | none =>
    cases hv : v.query with
    | none => rfl
    | some q => simp [search, hu, hv] at h
  | some q =>
    cases hv : v.query with
    | none => simp [search, hu, hv] at h
    | some q' =>
      simp only [search, hu, hv, Option.map_some, Option.getD_some, List.cons.injEq, true_and] at h
      rw [String.toList_injective h]

/-- An address has one reading. -/
theorem text_injective : Function.Injective text := by
  intro u v h
  have hbase : u.server ++ u.path = v.server ++ v.path := by
    rw [← u.cut_text.1, ← v.cut_text.1, h]
  have hsearch : u.search = v.search := by
    rw [← u.cut_text.2, ← v.cut_text.2, h]
  have hserver : u.server = v.server := by
    rw [← u.serverOf_text, ← v.serverOf_text, hbase]
  have hpath : u.path = v.path := by
    rw [hserver] at hbase
    exact List.append_cancel_left hbase
  obtain ⟨hscheme, hauthority⟩ := server_injective hserver
  have hname := path_injective hpath
  have hquery := search_injective hsearch
  cases u
  cases v
  simp_all

end ServerUrl

/-- A name is swapped for the last one asked for. -/
theorem swapDb_swapDb (u : ServerUrl) (d d' : Segment) :
    swapDb (swapDb u.text d.text) d'.text = swapDb u.text d'.text := by
  rw [swapDb_text, swapDb_text, swapDb_text, ServerUrl.named_named]

/-! ## The local provider -/

/-- `LocalProvider`. -/
structure LocalProvider where
  adminUrl : String
  baseUrl : String

namespace LocalProvider

/-- `LocalProvider::new`. -/
def new (baseUrl : String) : LocalProvider where
  adminUrl := swapDb baseUrl "postgres"
  baseUrl := baseUrl

/-- `conn_for`. -/
def connFor (p : LocalProvider) (orgId : Int64) : String := swapDb p.baseUrl (dbName orgId)

/-- What the registry derives is what the provider connects to. -/
theorem connFor_eq_derived (baseUrl : String) (orgId : Int64) :
    (Provider.localDb baseUrl).deriveConn orgId = some ((new baseUrl).connFor orgId) :=
  rfl

end LocalProvider

theorem unmarked_toDigits (n : Nat) : Unmarked (Nat.toDigits 10 n) := by
  constructor <;> intro hc
  · exact absurd (isDigit_of_mem_toDigits hc) (by decide)
  · exact absurd (isDigit_of_mem_toDigits hc) (by decide)

theorem unmarked_int64Chars (x : Int64) : Unmarked (int64Chars x) := by
  unfold int64Chars
  split
  · exact unmarked_toDigits _
  · rename_i n _
    obtain ⟨hslash, hmark⟩ := unmarked_toDigits (n + 1)
    exact ⟨by simp [hslash], by simp [hmark]⟩

theorem toList_dbName (orgId : Int64) :
    (dbName orgId).toList = "reproit_tenant_".toList ++ int64Chars orgId := by
  unfold dbName
  exact String.toList_ofList

theorem unmarked_dbName (orgId : Int64) : Unmarked (dbName orgId).toList := by
  have hstart : Unmarked "reproit_tenant_".toList := by decide
  have hnumber := unmarked_int64Chars orgId
  rw [toList_dbName]
  constructor <;> rw [List.mem_append, not_or]
  · exact ⟨hstart.1, hnumber.1⟩
  · exact ⟨hstart.2, hnumber.2⟩

/-- The database of an organization. -/
def tenantDatabase (orgId : Int64) : Segment where
  text := dbName orgId
  unmarked := unmarked_dbName orgId

/-- The database that the others are made from. -/
def maintenanceDatabase : Segment where
  text := "postgres"
  unmarked := by decide

theorem adminUrl_text (u : ServerUrl) :
    (LocalProvider.new u.text).adminUrl = (u.named maintenanceDatabase).text := by
  rw [← swapDb_text, LocalProvider.new, maintenanceDatabase]

theorem connFor_text (u : ServerUrl) (orgId : Int64) :
    (LocalProvider.new u.text).connFor orgId = (u.named (tenantDatabase orgId)).text := by
  rw [← swapDb_text, LocalProvider.connFor, LocalProvider.new, tenantDatabase]

theorem tenantDatabase_injective : Function.Injective tenantDatabase :=
  fun _ _ h => dbName_inj (congrArg Segment.text h)

theorem tenantDatabase_ne_maintenance (orgId : Int64) :
    tenantDatabase orgId ≠ maintenanceDatabase := by
  intro h
  have htext : dbName orgId = "postgres" := congrArg Segment.text h
  have hmine : "reproit_tenant_".toList.head? = some 'r' := by decide
  have hchars : (dbName orgId).toList = "postgres".toList := by rw [htext]
  have hfirst := congrArg List.head? hchars
  rw [toList_dbName, List.head?_append, hmine, Option.some_or] at hfirst
  revert hfirst
  decide

/-- The swap changes the name in any address and nothing else, the later of two swaps stands,
and the organizations of a local provider have one database each on the server of its base
address, none of which is the maintenance database. -/
theorem local_databases_apart (u : ServerUrl) :
    (∀ (d : Segment) (v : ServerUrl), swapDb u.text d.text = v.text ↔
      v.scheme = u.scheme ∧ v.authority = u.authority ∧ v.query = u.query ∧ v.name = some d) ∧
    (∀ d d' : Segment, swapDb (swapDb u.text d.text) d'.text = swapDb u.text d'.text) ∧
    (LocalProvider.new u.text).adminUrl = (u.named maintenanceDatabase).text ∧
    (∀ orgId, (LocalProvider.new u.text).connFor orgId = (u.named (tenantDatabase orgId)).text) ∧
    Function.Injective tenantDatabase ∧
    ∀ orgId, tenantDatabase orgId ≠ maintenanceDatabase := by
  refine ⟨fun d v => ?_, swapDb_swapDb u, adminUrl_text u, connFor_text u,
    tenantDatabase_injective, tenantDatabase_ne_maintenance⟩
  rw [swapDb_text]
  constructor
  · intro h
    rw [← ServerUrl.text_injective h]
    exact ⟨rfl, rfl, rfl, rfl⟩
  · rintro ⟨hscheme, hauthority, hquery, hname⟩
    rw [ServerUrl.named, ← hscheme, ← hauthority, ← hquery, ← hname]

end ReproitCloud
