import Qlabs.Http.Request

/-!
# MIME types

`GetMimeType` tests the suffixes of a file name one after the other. This is a
lookup, in a table (`mimeTypes`), of what comes after the last dot of the name,
in lower case (`extension?`): a name ends with a dot and a text without dots
exactly when that text is its extension (`endsWith_iff_extension`). So no name has
two of the suffixes, and they may be tested in any order (`getMimeType_lookup`).
-/

namespace Qlabs.Http

/-- The text after the last dot of a file name, in lower case, if there is a dot. -/
def extension? (filename : Bytes) : Option Bytes :=
  if 46 ∈ filename then some ((filename.rtakeWhile (· != 46)).map toLowerASCII) else none

/-- The MIME types by extension. -/
def mimeTypes : List (Bytes × Bytes) :=
  [(bytes "html", bytes "text/html"), (bytes "css", bytes "text/css"),
    (bytes "js", bytes "application/javascript"), (bytes "png", bytes "image/png"),
    (bytes "gif", bytes "image/gif"), (bytes "json", bytes "application/json"),
    (bytes "svg", bytes "image/svg+xml")]

/-- The type of the first entry of a table whose extension, with a dot before it,
    is a suffix of a file name. -/
def mimeTypeBySuffix (b : Base) (table : List (Bytes × Bytes)) (filename : Bytes) : Bytes :=
  ((table.find? fun p => b.endsWith filename (46 :: p.1)).map Prod.snd).getD (bytes "text/plain")

example : extension? (bytes "a.b/c.JSon") = some (bytes "json") := by decide
example : extension? (bytes "index.") = some [] := by decide

/-! ## Lists -/

section Lists

variable {α β : Type*}

/-- A text without separators comes after a separator, at the end of a list, exactly
    when it is what comes after the last one. -/
theorem cons_suffix_iff [DecidableEq α] {sep : α} {t l : List α} (ht : sep ∉ t) :
    sep :: t <:+ l ↔ sep ∈ l ∧ l.rtakeWhile (· != sep) = t := by
  constructor
  · rintro ⟨l, rfl⟩
    refine ⟨by simp, ?_⟩
    have hrev : ∀ a ∈ t.reverse, a != sep := by
      intro a ha
      simpa using ne_of_mem_of_not_mem (List.mem_reverse.1 ha) ht
    simp [List.rtakeWhile, List.takeWhile_append_of_pos hrev]
  · rintro ⟨hmem, rfl⟩
    -- What is left of the list ends with the last separator.
    have hne : l.rdropWhile (· != sep) ≠ [] := by
      rw [Ne, List.rdropWhile_eq_nil_iff]
      exact fun h => by simpa using h sep hmem
    have hlast : (l.rdropWhile (· != sep)).getLast hne = sep := by
      simpa using List.rdropWhile_last_not (· != sep) l hne
    refine ⟨(l.rdropWhile (· != sep)).dropLast, ?_⟩
    conv_rhs => rw [← List.rdropWhile_append_rtakeWhile (p := (· != sep)) (l := l),
      ← List.dropLast_append_getLast hne, hlast]
    simp

/-- If one element at most satisfies a predicate, then so does the first one that does,
    in any order. -/
theorem find?_eq_of_perm {p : α → Bool} {l l' : List α} (hperm : l.Perm l')
    (hunique : ∀ a ∈ l, ∀ b ∈ l, p a → p b → a = b) : l.find? p = l'.find? p := by
  cases h : l'.find? p with
  | none =>
    rw [List.find?_eq_none] at h ⊢
    exact fun a ha => h a (hperm.mem_iff.1 ha)
  | some b =>
    have hb : b ∈ l := hperm.mem_iff.2 (List.mem_of_find?_eq_some h)
    obtain ⟨a, ha⟩ := Option.isSome_iff_exists.1 (List.find?_isSome.2 ⟨b, hb, List.find?_some h⟩)
    rw [ha, hunique a (List.mem_of_find?_eq_some ha) b hb (List.find?_some ha) (List.find?_some h)]

/-- Looking up an optional key is looking for the entry with that key. -/
theorem find?_key_eq_lookup [BEq α] [LawfulBEq α] {p : α × β → Bool} {key : Option α}
    {table : List (α × β)} (hp : ∀ e ∈ table, p e ↔ key = some e.1) :
    (table.find? p).map Prod.snd = key.bind fun k => table.lookup k := by
  induction table with
  | nil => cases key <;> rfl
  | cons e table ih =>
    obtain ⟨k, v⟩ := e
    have ih := ih fun e he => hp e (List.mem_cons_of_mem _ he)
    have hpe : p (k, v) ↔ key = some k := hp _ List.mem_cons_self
    by_cases hkey : key = some k
    · simp [hpe.2 hkey, hkey]
    · rw [List.find?_cons_of_neg (hpe.not.2 hkey), ih]
      cases key with
      | none => rfl
      | some k' =>
        have hne : (k' == k) = false := by simpa using hkey
        simp [List.lookup_cons, hne]

end Lists

/-! ## Extensions -/

theorem toLowerASCII_eq_dot {b : UInt8} : toLowerASCII b = 46 ↔ b = 46 := by
  rw [toLowerASCII]
  split_ifs with h
  · have hlow := UInt8.le_iff_toNat_le.1 h.1
    have hhigh := UInt8.le_iff_toNat_le.1 h.2
    rw [← UInt8.toNat_inj, ← UInt8.toNat_inj, UInt8.toNat_add]
    change _ ≤ 90 at hhigh
    change 65 ≤ _ at hlow
    change (b.toNat + 32) % 256 = 46 ↔ b.toNat = 46
    omega
  · rfl

theorem rtakeWhile_map_toLowerASCII (s : Bytes) :
    (s.map toLowerASCII).rtakeWhile (· != 46) = (s.rtakeWhile (· != 46)).map toLowerASCII := by
  have hdot : ((· != 46) : UInt8 → Bool) ∘ toLowerASCII = (· != 46) := by
    funext b
    simp [bne, toLowerASCII_eq_dot]
  simp [List.rtakeWhile, ← List.map_reverse, List.takeWhile_map, hdot]

/-- A file name ends with a dot and a text without dots exactly when that text is its
    extension. -/
theorem endsWith_iff_extension {b : Base} (hb : b.Lawful) {ext : Bytes}
    (hlower : ext.map toLowerASCII = ext) (hdot : 46 ∉ ext) (filename : Bytes) :
    b.endsWith filename (46 :: ext) ↔ extension? filename = some ext := by
  have hmem : 46 ∈ filename.map toLowerASCII ↔ 46 ∈ filename := by
    simp [toLowerASCII_eq_dot]
  rw [hb.endsWith_iff, List.map_cons, hlower, show toLowerASCII 46 = 46 from rfl,
    cons_suffix_iff hdot, hmem, rtakeWhile_map_toLowerASCII, extension?]
  split_ifs with h <;> simp [h]

theorem endsWith_iff_of_mem {b : Base} (hb : b.Lawful) (filename : Bytes) :
    ∀ p ∈ mimeTypes, b.endsWith filename (46 :: p.1) ↔ extension? filename = some p.1 := by
  have hext : ∀ p ∈ mimeTypes, p.1.map toLowerASCII = p.1 ∧ 46 ∉ p.1 := by decide
  exact fun p hp => endsWith_iff_extension hb (hext p hp).1 (hext p hp).2 filename

/-- `GetMimeType` tests the suffixes of the table in its order. -/
theorem getMimeType_eq (b : Base) (filename : Bytes) :
    getMimeType b filename = mimeTypeBySuffix b mimeTypes filename := by
  have hfind : ∀ (p : Bytes × Bytes) (table : List (Bytes × Bytes)),
      mimeTypeBySuffix b (p :: table) filename =
        if b.endsWith filename (46 :: p.1) then p.2 else mimeTypeBySuffix b table filename := by
    intro p table
    by_cases h : b.endsWith filename (46 :: p.1) <;> simp [mimeTypeBySuffix, h]
  simp only [mimeTypes, hfind]
  rfl

/-- `GetMimeType` looks the extension of a file name up. One suffix at most is that of a
    name, so that they may be tested in any order. -/
theorem getMimeType_lookup {b : Base} (hb : b.Lawful) (filename : Bytes) :
    getMimeType b filename =
      ((extension? filename).bind fun ext => mimeTypes.lookup ext).getD (bytes "text/plain") ∧
    (∀ p ∈ mimeTypes, ∀ q ∈ mimeTypes, b.endsWith filename (46 :: p.1) →
      b.endsWith filename (46 :: q.1) → p = q) ∧
    ∀ table, table.Perm mimeTypes →
      mimeTypeBySuffix b table filename = getMimeType b filename := by
  have hends := endsWith_iff_of_mem hb filename
  have hkeys : ∀ p ∈ mimeTypes, ∀ q ∈ mimeTypes, p.1 = q.1 → p = q := by decide
  have hunique : ∀ p ∈ mimeTypes, ∀ q ∈ mimeTypes, b.endsWith filename (46 :: p.1) →
      b.endsWith filename (46 :: q.1) → p = q := by
    intro p hp q hq hpe hqe
    exact hkeys p hp q hq (Option.some.inj (((hends p hp).1 hpe).symm.trans ((hends q hq).1 hqe)))
  refine ⟨?_, hunique, fun table hperm => ?_⟩
  · rw [getMimeType_eq, mimeTypeBySuffix, find?_key_eq_lookup hends]
  · rw [getMimeType_eq, mimeTypeBySuffix, mimeTypeBySuffix, find?_eq_of_perm hperm.symm hunique]

/-- A name with several dots, in mixed case. -/
theorem getMimeType_lookup_json :
    getMimeType .posix (bytes "a.js/b.HTML.JSon") = bytes "application/json" := by
  have hlookup := (getMimeType_lookup Base.posix_lawful (bytes "a.js/b.HTML.JSon")).1
  rw [hlookup]
  decide

end Qlabs.Http
