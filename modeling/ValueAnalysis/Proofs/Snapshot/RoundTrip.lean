import Mathlib.Tactic.Common
import ValueAnalysis.Snapshot.Reader

/-! The S-expression of a snapshot can be read back from its text. Written one after another, the items of a list leave
the reader where pushing them would, up to a symbol that has not ended yet. Plain data depends on the S-expression
alone, so snapshots with one text have the same data. -/

namespace ValueAnalysis

namespace Sexp

mutual

def isReadable : Sexp → Bool
  | symbol name => !name.toList.isEmpty && name.toList.all (!isDelimiter ·)
  | string _ => true
  | list items => areReadable items

def areReadable : List Sexp → Bool
  | [] => true
  | x :: xs => x.isReadable && areReadable xs

end

lemma unescape?_of_escapeLetter? {c l : Char} (h : escapeLetter? c = some l) : unescape? l = some c := by
  have hchar {n : Nat} (hn : c.toNat = n) : c = Char.ofNat n := by rw [← hn, Char.ofNat_toNat]
  rw [escapeLetter?] at h
  split at h <;> cases h
  all_goals
    rename_i hn
    rw [hchar hn]
    rfl

lemma ne_of_escapeLetter?_eq_none {c : Char} (h : escapeLetter? c = none) : c ≠ '\x22' ∧ c ≠ '\\' := by
  constructor
  · rintro rfl
    cases h
  · rintro rfl
    cases h

namespace Reader

variable {r s : Reader} {c : Char}

lemma run_cons (r : Reader) (c : Char) (cs : List Char) : r.run (c :: cs) = (r.step c).bind (·.run cs) := rfl

lemma run_append (r : Reader) (cs ds : List Char) : r.run (cs ++ ds) = (r.run cs).bind (·.run ds) := by
  induction cs generalizing r with
  | nil => rfl
  | cons c cs ih =>
    rw [List.cons_append, run_cons, run_cons]
    cases r.step c with
    | none => rfl
    | some s => exact ih s

lemma settle_of_none (h : r.token = .none) : r.settle = r := by
  rw [settle, h]

lemma step_of_isDelimiter (h : r.settle.token = .none) (hc : isDelimiter c = true) :
    r.step c = r.settle.delimit? c := by
  cases htoken : r.token with
  | none => simp only [step, htoken, settle_of_none htoken, if_pos hc]
  | symbol cs => simp only [step, htoken, if_pos hc]
  | string cs =>
    rw [settle, htoken] at h
    cases htoken.symm.trans h
  | escape cs =>
    rw [settle, htoken] at h
    cases htoken.symm.trans h

section String

lemma run_escape (r : Reader) (c : Char) (cs : List Char) :
    run { r with token := .string cs } (escape c) = some { r with token := .string (c :: cs) } := by
  rw [escape]
  cases h : escapeLetter? c with
  | none =>
    obtain ⟨hquote, hslash⟩ := ne_of_escapeLetter?_eq_none h
    simp [run, step, hquote, hslash]
  | some l => simp [run, step, unescape?_of_escapeLetter? h]

lemma run_escaped (r : Reader) (cs ds : List Char) :
    run { r with token := .string ds } (cs.flatMap escape) = some { r with token := .string (cs.reverse ++ ds) } := by
  induction cs generalizing ds with
  | nil => rfl
  | cons c cs ih =>
    rw [List.flatMap_cons, run_append, run_escape, Option.bind_some, ih, List.reverse_cons, List.append_assoc,
      List.singleton_append]

lemma run_quote (h : r.token = .none) (s : String) : r.run (quote s) = some (r.push (.string s)) := by
  have hopen : r.step '\x22' = some { r with token := .string [] } := by
    rw [step_of_isDelimiter (by rw [settle_of_none h, h]) (by decide), settle_of_none h]
    rfl
  rw [quote, List.cons_append, run_cons, hopen, Option.bind_some, run_append, run_escaped, Option.bind_some]
  simp [run, step, push]

end String

lemma run_symbol {cs ds : List Char} (h : cs.all (!isDelimiter ·) = true) :
    run { r with token := .symbol ds } cs = some { r with token := .symbol (cs.reverse ++ ds) } := by
  induction cs generalizing ds with
  | nil => rfl
  | cons c cs ih =>
    simp only [List.all_cons, Bool.and_eq_true, Bool.not_eq_true'] at h
    rw [run_cons, step]
    simp only [h.1, Bool.false_eq_true, if_false, Option.bind_some]
    rw [ih (by simpa using h.2), List.reverse_cons, List.append_assoc, List.singleton_append]

lemma run_symbol_of_none {name : String} (h : r.token = .none) (hname : (symbol name).isReadable = true) :
    ∃ s, r.run name.toList = some s ∧ s.settle = r.push (.symbol name) := by
  rw [isReadable, Bool.and_eq_true] at hname
  obtain ⟨hne, hall⟩ := hname
  cases hcs : name.toList with
  | nil => simp [hcs] at hne
  | cons c cs =>
    rw [hcs, List.all_cons, Bool.and_eq_true, Bool.not_eq_true'] at hall
    obtain ⟨hc, hall⟩ := hall
    refine ⟨{ r with token := .symbol (cs.reverse ++ [c]) }, ?_, ?_⟩
    · rw [run_cons, ← run_symbol hall]
      simp [step, h, hc]
    · rw [← List.reverse_cons, ← hcs]
      simp [settle, push]

lemma step_open (h : r.token = .none) : r.step '(' = some r.openList := by
  rw [step_of_isDelimiter (by rw [settle_of_none h, h]) (by decide), settle_of_none h]
  rfl

lemma step_space (h : r.settle.token = .none) : r.step ' ' = some r.settle :=
  step_of_isDelimiter h (by decide)

lemma step_close {items : List Sexp} (h : s.settle = { r.openList with items := items.reverse }) :
    s.step ')' = some (r.push (.list items)) := by
  have htoken : s.settle.token = .none := by rw [h]; rfl
  rw [step_of_isDelimiter htoken (by decide), h]
  simp [delimit?, closeList?, openList, push]

mutual

lemma run_chars : ∀ (x : Sexp) (r : Reader), r.token = .none → x.isReadable = true →
    ∃ s, r.run x.chars = some s ∧ s.settle = r.push x
  | symbol _, _, h, hx => run_symbol_of_none h hx
  | string t, _, h, _ => ⟨_, run_quote h t, rfl⟩
  | list items, r, h, hx => by
    obtain ⟨s, hs, hsettle⟩ := run_charsOfItems items r.openList rfl hx
    have hclose : s.step ')' = some (r.push (.list items)) := step_close (by rw [hsettle, openList, List.append_nil])
    refine ⟨r.push (.list items), ?_, rfl⟩
    rw [chars, List.cons_append, run_cons, step_open h, Option.bind_some, run_append, hs, Option.bind_some, run_cons,
      hclose, Option.bind_some, run]

lemma run_charsOfItems : ∀ (items : List Sexp) (r : Reader), r.token = .none → areReadable items = true →
    ∃ s, r.run (charsOfItems items) = some s ∧ s.settle = { r with items := items.reverse ++ r.items }
  | [], r, h, _ => ⟨r, rfl, settle_of_none h⟩
  | [x], r, h, hitems => by
    rw [areReadable, Bool.and_eq_true] at hitems
    obtain ⟨s, hs, hsettle⟩ := run_chars x r h hitems.1
    refine ⟨s, hs, ?_⟩
    rw [hsettle, push, ← h]
    rfl
  | x :: y :: rest, r, h, hitems => by
    rw [areReadable, Bool.and_eq_true] at hitems
    obtain ⟨s, hs, hsettle⟩ := run_chars x r h hitems.1
    obtain ⟨t, ht, htsettle⟩ := run_charsOfItems (y :: rest) (r.push x) rfl hitems.2
    have hspace : s.step ' ' = some (r.push x) := by
      rw [step_space (by rw [hsettle]; rfl), hsettle]
    refine ⟨t, ?_, ?_⟩
    · rw [charsOfItems, run_append, hs, Option.bind_some, run_cons, hspace, Option.bind_some, ht]
    · rw [htsettle, push, List.reverse_cons (a := x), List.append_assoc, ← h]
      rfl

end

end Reader

lemma read?_text {x : Sexp} (hx : x.isReadable = true) : read? x.text = some x := by
  obtain ⟨r, hr, hsettle⟩ := Reader.run_chars x {} rfl hx
  rw [read?, text, String.toList_ofList, hr, Option.bind_some, Reader.result?, hsettle]
  rfl

end Sexp

namespace Snapshot

mutual

lemma isReadable_toSexp : ∀ x : Snapshot, x.toSexp.isReadable = true
  | text _ | top | bottom => by rw [toSexp]; rfl
  | set items | list items => by
    rw [toSexp, Sexp.isReadable, Sexp.areReadable, areReadable_toSexpAll items]
    rfl
  | map entries => by
    rw [toSexp, Sexp.isReadable, Sexp.areReadable, areReadable_toSexpEntries entries]
    rfl

lemma areReadable_toSexpAll : ∀ items : List Snapshot, Sexp.areReadable (toSexpAll items) = true
  | [] => rfl
  | x :: xs => by
    rw [toSexpAll, Sexp.areReadable, isReadable_toSexp x, areReadable_toSexpAll xs]
    rfl

lemma areReadable_toSexpEntries :
    ∀ entries : List (Snapshot × Snapshot), Sexp.areReadable (toSexpEntries entries) = true
  | [] => rfl
  | (k, v) :: rest => by
    rw [toSexpEntries, Sexp.areReadable, areReadable_toSexpEntries rest, Bool.and_true, Sexp.isReadable,
      Sexp.areReadable, Sexp.areReadable, isReadable_toSexp v]
    rfl

end

mutual

lemma toData_toSexp : ∀ x : Snapshot, x.toSexp.toData = x.toData
  | text _ | top | bottom => by rw [toSexp]; rfl
  | set items | list items => by
    rw [toSexp, Sexp.toData, toDataAll_toSexpAll items]
    rfl
  | map entries => by
    rw [toSexp, Sexp.toData, toFields_toSexpEntries [] entries]
    rfl

lemma toDataAll_toSexpAll : ∀ items : List Snapshot, Sexp.toDataAll (toSexpAll items) = toDataAll items
  | [] => rfl
  | x :: xs => by rw [toSexpAll, Sexp.toDataAll, toData_toSexp x, toDataAll_toSexpAll xs, toDataAll]

lemma toFields_toSexpEntries : ∀ (fields : List (String × Data)) (entries : List (Snapshot × Snapshot)),
    Sexp.toFields fields (toSexpEntries entries) = toFields fields entries
  | _, [] => rfl
  | fields, (k, v) :: rest => by
    rw [toSexpEntries, Sexp.toFields, toData_toSexp v, toFields_toSexpEntries _ rest, toFields]

end

theorem sexp_text_lossless :
    (∀ x : Snapshot, Sexp.read? x.sexpText = some x.toSexp) ∧
      ∀ x y : Snapshot, x.sexpText = y.sexpText → x.toData = y.toData := by
  have hread (x : Snapshot) : Sexp.read? x.sexpText = some x.toSexp := Sexp.read?_text (isReadable_toSexp x)
  refine ⟨hread, fun x y h => ?_⟩
  have hsexp : x.toSexp = y.toSexp := Option.some.inj ((hread x).symm.trans (h ▸ hread y))
  calc x.toData = x.toSexp.toData := (toData_toSexp x).symm
    _ = y.toSexp.toData := by rw [hsexp]
    _ = y.toData := toData_toSexp y

/-- A key is written by its text, so two trees can share an S-expression. They share their data then. -/
theorem sexp_text_lossless_shared :
    let hostile : Snapshot := .text "a\" (b)\\n \n"
    let x : Snapshot := .map [(.set [.text "y"], .set [hostile, .top])]
    let y : Snapshot := .map [(.text "\x7by\x7d", .set [hostile, .top])]
    x.sexpText = y.sexpText ∧ Sexp.read? x.sexpText = some y.toSexp ∧ x.toData = y.toData := by
  intro hostile x y
  have htext : x.sexpText = y.sexpText := by decide
  obtain ⟨hread, hdata⟩ := sexp_text_lossless
  exact ⟨htext, htext ▸ hread y, hdata x y htext⟩

end Snapshot

end ValueAnalysis
