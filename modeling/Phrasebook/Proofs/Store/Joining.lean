/-
  A lookup finds a leaf by the keys that lead to it.

  Storing joins the keys of a leaf by points, from the outermost table inwards.
  A lookup joins a scope and a key by a separator of the caller's choice, and
  puts points for the separators.  The two meet in the path of the leaf wherever
  its keys are cut into a scope and a key, and however the scope is given
  (`joinKey_eq`): empty parts are left out, and a separator that is no character
  of the keys stands nowhere else.

  What a store holds is told by its last call alone where that call wrote, so
  nothing needs to be known of the calls before it (`Tidy`).
-/
import Phrasebook.Proofs.Store.LastWrite

set_option autoImplicit false

namespace Phrasebook

/-! ## Separators -/

/-- Putting a text for a character goes character by character. -/
theorem replace_singleton (c : Char) (new s : List Char) :
    Text.replace [c] new s = s.flatMap fun d => if d = c then new else [d] := by
  change Text.replaceFrom [c] new s.length s = _
  induction s with
  | nil => rfl
  | cons d rest ih =>
    have hstep : [c].isPrefixOf? (d :: rest) = if c == d then some rest else none := rfl
    rw [List.length_cons, Text.replaceFrom, hstep, List.flatMap_cons]
    by_cases hd : d = c
    · subst hd
      rw [if_pos (beq_self_eq_true d), if_pos rfl]
      exact congrArg (new ++ ·) ih
    · have hne : ¬ (c == d) = true := fun h => hd (beq_iff_eq.1 h).symm
      rw [if_neg hne, if_neg hd]
      exact congrArg (d :: ·) ih

theorem replace_of_not_mem {c : Char} {piece : List Char} (h : c ∉ piece) (new : List Char) :
    Text.replace [c] new piece = piece := by
  have hkept : ∀ d ∈ piece, (if d = c then new else [d]) = [d] := by
    intro d hd
    exact if_neg fun heq : d = c => h (heq ▸ hd)
  rw [replace_singleton, List.flatMap_congr hkept, List.flatMap_singleton']

/-- Pieces that are joined by a character and do not have it are joined by the text that is put for
the character. -/
theorem replace_intercalate {c : Char} (new : List Char) {pieces : List (List Char)}
    (h : ∀ piece ∈ pieces, c ∉ piece) :
    Text.replace [c] new ([c].intercalate pieces) = new.intercalate pieces := by
  induction pieces with
  | nil => rfl
  | cons piece rest ih =>
    obtain ⟨hpiece, hrest⟩ := List.forall_mem_cons.1 h
    have hfront := replace_of_not_mem hpiece new
    cases rest with
    | nil => rw [List.intercalate_singleton, List.intercalate_singleton, hfront]
    | cons next more =>
      rw [replace_singleton] at hfront ih ⊢
      rw [List.intercalate_cons_cons, List.intercalate_cons_cons, List.flatMap_append,
        List.flatMap_append, hfront, ih hrest]
      simp

/-- Whether a separator tells some names apart: it is the one of paths, or one character that none
of the names has. -/
def Separates (separator : String) (names : List String) : Prop :=
  separator = pathSeparator ∨
    ∃ c : Char, separator = String.singleton c ∧ ∀ name ∈ names, c ∉ name.toList

/-! ## Scopes -/

/-- The scopes that some names can be given by, none of which is empty: one text, the list of the
names, or nothing for no names. -/
inductive Scope.Spells (separator : String) : List String → Scope → Prop
  | outermost : Spells separator [] .outermost
  | path (names : List String) : Spells separator names (.path (separator.intercalate names))
  | parts (names : List String) : Spells separator names (.parts names)

theorem intercalate_ne_empty {names : List String} (hne : names ≠ [])
    (h : ∀ name ∈ names, name ≠ "") (separator : String) : separator.intercalate names ≠ "" := by
  obtain ⟨first, rest, rfl⟩ := List.exists_cons_of_ne_nil hne
  have hfirst : first ≠ "" := h first List.mem_cons_self
  cases rest with
  | nil => rwa [String.intercalate_singleton]
  | cons second more => simp [String.intercalate_cons_cons, hfirst]

section Join

variable {separator : String} {front back : List String} {scope : Scope}

/-- Some names, the last of them joined already, are joined as they are. -/
theorem intercalate_append_singleton (hback : back ≠ []) :
    separator.intercalate (front ++ [separator.intercalate back]) =
      separator.intercalate (front ++ back) := by
  rcases eq_or_ne front [] with rfl | hfront
  · exact String.intercalate_singleton
  · rw [String.intercalate_append_of_ne_nil hfront hback,
      String.intercalate_append_of_ne_nil hfront (List.cons_ne_nil _ _),
      String.intercalate_singleton]

/-- The parts of a scope and a key that are not empty, joined, are all names joined. -/
theorem Scope.Spells.intercalate_eq (h : scope.Spells separator front) (hback : back ≠ [])
    (hnames : ∀ name ∈ front ++ back, name ≠ "") :
    separator.intercalate
        ((scope.names ++ [separator.intercalate back]).filter (· ≠ "")) =
      separator.intercalate (front ++ back) := by
  have hkey : separator.intercalate back ≠ "" :=
    intercalate_ne_empty hback (fun name hname => hnames name (List.mem_append_right _ hname)) _
  have hlast : [separator.intercalate back].filter (· ≠ "") = [separator.intercalate back] := by
    simp [hkey]
  rw [List.filter_append, hlast]
  cases h with
  | outermost => exact String.intercalate_singleton
  | path =>
    rcases eq_or_ne front [] with rfl | hfront
    · simp [Scope.names]
    · have hscope : separator.intercalate front ≠ "" :=
        intercalate_ne_empty hfront
          (fun name hname => hnames name (List.mem_append_left _ hname)) _
      have hfirst : [separator.intercalate front].filter (· ≠ "") =
          [separator.intercalate front] := by simp [hscope]
      rw [Scope.names, hfirst, List.singleton_append, String.intercalate_cons_cons,
        String.intercalate_singleton, String.intercalate_append_of_ne_nil hfront hback]
  | parts =>
    have hall : front.filter (· ≠ "") = front := by
      rw [List.filter_eq_self]
      intro name hname
      simpa using hnames name (List.mem_append_left _ hname)
    rw [Scope.names, hall]
    exact intercalate_append_singleton hback

/-- Wherever names are cut into a scope and a key, and by whatever separator they are joined, the
lookup goes to the path of the names. -/
theorem joinKey_eq (h : scope.Spells separator front) (hback : back ≠ [])
    (hnames : ∀ name ∈ front ++ back, name ≠ "") (hsep : Separates separator (front ++ back)) :
    joinKey scope (separator.intercalate back) separator =
      pathSeparator.intercalate (front ++ back) := by
  rw [joinKey, h.intercalate_eq hback hnames]
  rcases hsep with rfl | ⟨c, rfl, hfree⟩
  · exact if_pos rfl
  · split
    · next heq => rw [heq]
    · have hpieces : ∀ piece ∈ (front ++ back).map String.toList, c ∉ piece := by
        intro piece hpiece
        obtain ⟨name, hname, rfl⟩ := List.mem_map.1 hpiece
        exact hfree name hname
      rw [String.toList_intercalate, String.toList_singleton, replace_intercalate _ hpieces,
        ← String.toList_intercalate, String.ofList_toList]

end Join

/-! ## Stores -/

namespace Store

/-- A document is stored whatever the store holds, and then each of its paths has the value that the
document writes there last. -/
theorem Tidy.exists_store {s : Store} (h : Tidy s) (locale : String)
    {entries : List (Value × Value)} (hkeyed : KeyedTable entries) :
    ∃ s', s.store locale entries = .ok s' ∧
      ∀ path v, Entries.find? path (leafEntries entries) = some v →
        s'.value? locale path = some v := by
  refine ⟨s.insert locale (Entries.ofPairs (leafEntries entries)), ?_, ?_⟩
  · rw [Store.store, flatten_eq hkeyed]
    rfl
  · intro path v hfind
    rw [value?, table?_insert h.nodup, if_pos rfl, Option.bind_eq_bind, Option.bind_some,
      Entries.find?_insertAll (h.nodup_getD locale), Entries.find?_ofPairs, hfind, Option.some_or]

/-- A leaf is what its document writes last under its path, unless a later leaf has the path. -/
theorem find?_leafEntries {entries : List (Value × Value)} {earlier later : List Leaf} {leaf : Leaf}
    (hsplit : tableLeaves entries = earlier ++ leaf :: later)
    (hlast : ∀ other ∈ later, other.path ≠ leaf.path) :
    Entries.find? leaf.path (leafEntries entries) = some leaf.value := by
  have hlater : leaf.path ∉ Entries.keys (later.map fun other => (other.path, other.value)) := by
    intro hmem
    obtain ⟨pair, hpair, hpath⟩ := List.mem_map.1 hmem
    obtain ⟨other, hother, rfl⟩ := List.mem_map.1 hpair
    exact hlast other hother hpath
  have hentries : leafEntries entries =
      (earlier.map fun other => (other.path, other.value)) ++ (leaf.path, leaf.value) ::
        later.map fun other => (other.path, other.value) := by
    rw [leafEntries, hsplit, List.map_append, List.map_cons]
  exact Entries.find?_eq_some_iff_append.2 ⟨_, _, hentries, hlater⟩

/-- A document whose keys can be parts of paths is stored whatever was stored before, and a lookup
finds each of its leaves by the keys that lead to it, unless a later leaf of the document has the
same path.  The keys may be cut anywhere into a scope and a key of at least one part, and joined by
points or by a character that none of them has; the scope may be one text, the list of its parts, or
missing where it has none. -/
theorem resolve_leaf (calls : List Call) (s : Store) (hcalls : storeAll empty calls = .ok s)
    (locale : String) (entries : List (Value × Value)) (hkeyed : KeyedTable entries) :
    ∃ s', s.store locale entries = .ok s' ∧
      ∀ earlier leaf later, tableLeaves entries = earlier ++ leaf :: later →
        (∀ other ∈ later, other.path ≠ leaf.path) →
        ∀ front back, leaf.names = front ++ back → back ≠ [] →
          ∀ separator, Separates separator leaf.names →
            ∀ scope, Scope.Spells separator front scope →
              s'.resolve locale (separator.intercalate back) scope separator =
                .found leaf.value := by
  obtain ⟨s', hstore, hvalue⟩ := (tidy_empty.storeAll hcalls).exists_store locale hkeyed
  refine ⟨s', hstore, ?_⟩
  intro earlier leaf later hsplit hlast front back hcut hback separator hsep scope hscope
  have hmem : leaf ∈ tableLeaves entries :=
    hsplit ▸ List.mem_append_right _ List.mem_cons_self
  have hnames := names_ne_of_mem_tableLeaves entries hkeyed leaf hmem
  rw [hcut] at hnames hsep
  have hpath : joinKey scope (separator.intercalate back) separator = leaf.path := by
    rw [joinKey_eq hscope hback hnames hsep, Leaf.path, hcut]
  rw [resolve, hpath, hvalue leaf.path leaf.value (find?_leafEntries hsplit hlast)]

/-- A key with points in it between two others, looked up with slashes for separators; what was
stored under its path before does not matter. -/
theorem resolve_leaf_dotted :
    let entries : List (Value × Value) :=
      [(.text "a", .table [(.text "b.c", .table [(.text "d", .text "leaf")]),
        (.text "e", .null)])]
    ∃ s s', storeAll empty [⟨"en-US", [(.text "a.b.c.d", .bool false)]⟩] = .ok s ∧
      s.store "en_US" entries = .ok s' ∧
      s'.resolve "en_US" "b.c/d" (.parts ["a"]) "/" = .found (.text "leaf") ∧
      s'.resolve "en_US" "d" (.path "a/b.c") "/" = .found (.text "leaf") ∧
      s'.resolve "en_US" "a.b.c.d" .outermost "." = .found (.text "leaf") := by
  intro entries
  have hnames : ∀ name : String, name ≠ "" → (Value.text name).Names :=
    fun name hne => ⟨name, rfl, hne⟩
  have hkeyed : KeyedTable entries := by
    simp [entries, KeyedTable, Value.Keyed, hnames]
  have hbefore : KeyedTable [(.text "a.b.c.d", .bool false)] := by
    simp [KeyedTable, Value.Keyed, hnames]
  obtain ⟨s, hs, -⟩ := holds_empty.storeAll [⟨"en-US", [(.text "a.b.c.d", .bool false)]⟩]
    (fun call hcall => List.mem_singleton.1 hcall ▸ hbefore)
  obtain ⟨s', hstore, hfound⟩ := resolve_leaf _ s hs "en_US" entries hkeyed
  have hleaf := hfound [] ⟨[.text "a", .text "b.c", .text "d"], .text "leaf"⟩ _ rfl
    (by decide +kernel)
  have hslash : Separates "/" ["a", "b.c", "d"] := .inr ⟨'/', rfl, by decide⟩
  refine ⟨s, s', hs, hstore, ?_, ?_, ?_⟩
  · exact hleaf ["a"] ["b.c", "d"] rfl (by decide) "/" hslash _ (.parts ["a"])
  · exact hleaf ["a", "b.c"] ["d"] rfl (by decide) "/" hslash _ (.path ["a", "b.c"])
  · exact hleaf [] ["a", "b.c", "d"] rfl (by decide) "." (.inl rfl) _ .outermost

end Store

end Phrasebook
