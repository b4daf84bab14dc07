import AmbiLex.Proofs.Buffer.Counted
import AmbiLex.Proofs.Token.Definitions
import AmbiLex.Proofs.Token.Seeking
import Mathlib.Data.List.Forall2
import Mathlib.Data.List.Induction

/-!
# Compiling a table of tokens

A table is compiled from a list of definitions in which names may be repeated. A repeated name
leaves one definition, the last one, in the place of the first (`Keyed.ofList_eq_remaining`). The
table has the tokens that these definitions stand for, in their order, or it is not compiled because
of the first definition with a mistake (`TokenTable.compile_follows_entries`).

Nobody looks at a definition again after that. Three faults are kept for tokens that should never
have been made: one of no known kind, one that stores values in no known way, and one that should
ask a callback and has none. With a compiled table they do not occur, unless the user brought along
an encoder that was ready-made.
-/

namespace AmbiLex

/-! ## Repeated names -/

namespace Keyed

variable {α : Type} {entries : Keyed α}

/-- **The entries that remain of a list in which names are repeated**: each name once, where it
was given first, with what it was given last. -/
def remaining (entries : List (String × α)) : List (String × α) :=
  (entries.map Prod.fst).eraseDups.filterMap fun key =>
    (entries.reverse.lookup key).map fun value => (key, value)

/-- A new key comes last, and an old one stays in its place. -/
theorem keys_put (entries : Keyed α) (key : String) (value : α) :
    (entries.put key value).keys
      = if key ∈ entries.keys then entries.keys else entries.keys ++ [key] := by
  fun_induction put entries key value with
  | case1 => rfl
  | case2 v rest => simp [keys]
  | case3 k v rest hk ih =>
    change k :: (put rest key value).keys = _
    rw [ih]
    have hmem : key ∈ keys ((k, v) :: rest) ↔ key ∈ keys rest := by
      simp [keys, Ne.symm hk]
    simp only [hmem]
    split <;> rfl

/-- Giving a key a value gives no key twice. -/
theorem nodup_keys_put (h : entries.keys.Nodup) (key : String) (value : α) :
    (entries.put key value).keys.Nodup := by
  rw [keys_put]
  split
  · exact h
  · rename_i hnew
    have hone : [key].Nodup := List.nodup_cons.mpr ⟨nofun, List.nodup_nil⟩
    refine List.nodup_append.mpr ⟨h, hone, fun k hk k' hk' heq => hnew ?_⟩
    rw [← List.mem_singleton.mp hk', ← heq]
    exact hk

/-- The last entry is put in last. -/
theorem ofList_concat (entries : List (String × α)) (key : String) (value : α) :
    ofList (entries ++ [(key, value)]) = (ofList entries).put key value := by
  unfold ofList
  rw [List.foldl_append]
  rfl

/-- No key is given twice in a keyed list. -/
theorem nodup_keys_ofList (entries : List (String × α)) : (ofList entries).keys.Nodup := by
  induction entries using List.reverseRecOn with
  | nil => exact List.nodup_nil
  | append_singleton entries entry ih =>
    rw [ofList_concat]
    exact nodup_keys_put ih entry.1 entry.2

/-- **The keys are the names, in the order in which they first appeared.** -/
theorem keys_ofList (entries : List (String × α)) :
    (ofList entries).keys = (entries.map Prod.fst).eraseDups := by
  induction entries using List.reverseRecOn with
  | nil => rfl
  | append_singleton entries entry ih =>
    obtain ⟨key, value⟩ := entry
    rw [ofList_concat, keys_put, ih, List.map_append, List.eraseDups_append]
    by_cases h : key ∈ entries.map Prod.fst <;> simp [List.removeAll, h, List.eraseDups_cons]

/-- **What stands under a key is what was given last for it.** -/
theorem get?_ofList (entries : List (String × α)) (key : String) :
    (ofList entries).get? key = entries.reverse.lookup key := by
  induction entries using List.reverseRecOn with
  | nil => rfl
  | append_singleton entries entry ih =>
    obtain ⟨k, v⟩ := entry
    rw [ofList_concat, get?_put, ih, List.reverse_append]
    exact (get?_cons k v entries.reverse key).symm

/-- **Entries are known by their keys and what stands under them**, if no key is given twice. -/
theorem eq_filterMap_keys (h : entries.keys.Nodup) :
    entries = entries.keys.filterMap fun key =>
      (entries.get? key).map fun value => (key, value) := by
  induction entries with
  | nil => rfl
  | cons entry entries ih =>
    obtain ⟨k, v⟩ := entry
    obtain ⟨hnew, hnodup⟩ := List.nodup_cons.mp h
    have hrest : ∀ key ∈ keys entries,
        (get? ((k, v) :: entries) key).map (fun value => (key, value))
          = (get? entries key).map fun value => (key, value) := by
      intro key hkey
      have hne : k ≠ key := fun heq => hnew (heq ▸ hkey)
      rw [get?_cons, if_neg hne]
    change _ = (k :: keys entries).filterMap _
    rw [List.filterMap_cons, get?_cons, if_pos rfl, List.filterMap_congr hrest, ← ih hnodup]
    rfl

/-- **A keyed list consists of the entries that remain.** -/
theorem ofList_eq_remaining (entries : List (String × α)) : ofList entries = remaining entries := by
  rw [eq_filterMap_keys (nodup_keys_ofList entries), keys_ofList, remaining]
  simp only [get?_ofList]

end Keyed

/-! ## The first fault -/

section

variable {α β ε : Type} {f : α → Except ε β} {as : List α}

/-- **A sequence of answers has an answer for each.** -/
theorem mapM_eq_ok_iff {bs : List β} :
    as.mapM f = .ok bs ↔ List.Forall₂ (fun a b => f a = .ok b) as bs := by
  induction as generalizing bs with
  | nil =>
    rw [List.mapM_nil, List.forall₂_nil_left_iff]
    exact ⟨fun h => (Except.ok.inj h).symm, fun h => h ▸ rfl⟩
  | cons a as ih =>
    rw [List.mapM_cons, List.forall₂_cons_left_iff]
    simp only [← ih]
    cases f a with
    | error e => exact ⟨nofun, fun ⟨_, _, h, _⟩ => nomatch h⟩
    | ok b =>
      cases as.mapM f with
      | error e => exact ⟨nofun, fun ⟨_, _, _, h, _⟩ => nomatch h⟩
      | ok bs' =>
        constructor
        · intro h
          cases h
          exact ⟨b, bs', rfl, rfl, rfl⟩
        · rintro ⟨_, _, ⟨⟩, ⟨⟩, rfl⟩
          rfl

/-- A sequence is without an answer if its head is, or else if its tail is. -/
theorem mapM_cons_eq_error_iff {a : α} {e : ε} :
    (a :: as).mapM f = .error e ↔ f a = .error e ∨ (∃ b, f a = .ok b) ∧ as.mapM f = .error e := by
  rw [List.mapM_cons]
  cases f a with
  | error e' => simp [bind, Except.bind]
  | ok b => cases as.mapM f <;> simp [bind, Except.bind, pure, Except.pure]

/-- The first place of its kind is the head, or else it is in the tail. -/
theorem exists_first_cons_iff {P Q : α → Prop} {a : α} :
    (∃ before x after, a :: as = before ++ x :: after ∧ (∀ y ∈ before, P y) ∧ Q x)
      ↔ Q a ∨ P a ∧ ∃ before x after, as = before ++ x :: after ∧ (∀ y ∈ before, P y) ∧ Q x := by
  constructor
  · rintro ⟨before, x, after, hsplit, hbefore, hx⟩
    obtain ⟨rfl, hhead⟩ | ⟨rest, rfl, rfl⟩ := List.cons_eq_append_iff.mp hsplit
    · cases hhead
      exact .inl hx
    · obtain ⟨ha, hrest⟩ := List.forall_mem_cons.mp hbefore
      exact .inr ⟨ha, rest, x, after, rfl, hrest, hx⟩
  · rintro (ha | ⟨ha, before, x, after, rfl, hbefore, hx⟩)
    · exact ⟨[], a, as, rfl, nofun, ha⟩
    · exact ⟨a :: before, x, after, rfl, List.forall_mem_cons.mpr ⟨ha, hbefore⟩, hx⟩

/-- **A sequence without an answer stops at the first fault.** -/
theorem mapM_eq_error_iff {e : ε} :
    as.mapM f = .error e ↔ ∃ before a after, as = before ++ a :: after
      ∧ (∀ earlier ∈ before, ∃ b, f earlier = .ok b) ∧ f a = .error e := by
  induction as with
  | nil =>
    rw [List.mapM_nil]
    exact ⟨nofun, fun ⟨before, _, _, h, _⟩ => by cases before <;> cases h⟩
  | cons a as ih => rw [mapM_cons_eq_error_iff, exists_first_cons_iff, ih]

end

/-! ## Looking for tokens that can be used -/

/-- **Looking for a token that can be used fails only by a growth that fails, or by a match of the
empty text.** -/
theorem TokenSpec.seek_fails {spec : TokenSpec} (hu : spec.Usable) {b b' : Buffer} {fault : Fault}
    (h : spec.seek b = .error fault b') :
    (∃ growths b₁, Buffer.growTimes growths b = .ok () b₁ ∧ Buffer.grow b₁ = .error fault b')
      ∨ fault = .emptyMatch spec.name := by
  rw [seek_apply] at h
  obtain ⟨growths, b₁, hgrown, -, hend⟩ := Buffer.growWhile_counted spec.wanting b
  rcases hend with ⟨-, hloop⟩ | ⟨-, fault₁, b₂, hgrow, hloop⟩
  · rw [hloop] at h
    dsimp only at h
    cases hv : spec.verdict b₁.text with
    | ok found =>
      rw [hv] at h
      cases h
    | error fault₁ =>
      rw [hv] at h
      cases h
      exact .inr (emptyMatch_of_verdict hu hv)
  · rw [hloop] at h
    cases h
    exact .inl ⟨growths, b₁, hgrown, hgrow⟩

/-! ## Tables -/

namespace TokenTable

open Keyed (remaining)

variable {definitions : List (String × Setting)} {store : Setting} {table : TokenTable}
  {fault : Fault}

/-- Compiling a table is resolving the default and compiling the definitions that remain. -/
theorem compile_eq_ok_iff : compile definitions store = .ok table
    ↔ ∃ default, Encoder.resolve store = .ok default
      ∧ List.Forall₂ (fun entry spec => TokenSpec.CompiledFrom default entry.1 entry.2 spec)
        (remaining definitions) table := by
  unfold compile
  rw [Keyed.ofList_eq_remaining]
  cases Encoder.resolve store with
  | error fault => exact ⟨nofun, fun ⟨_, h, _⟩ => nomatch h⟩
  | ok default =>
    change List.mapM _ _ = _ ↔ _
    rw [mapM_eq_ok_iff]
    simp only [TokenSpec.compile_eq_ok_iff, Except.ok.injEq, exists_eq_left']

/-- **A table is not compiled because of its default, or else because of the first definition that
cannot be used.** -/
theorem compile_eq_error_iff : compile definitions store = .error fault
    ↔ ¬ store.Resolves ∧ fault = .unknownStore store.shown
      ∨ store.Resolves ∧ ∃ before entry after, remaining definitions = before ++ entry :: after
        ∧ (∀ earlier ∈ before, earlier.2.Valid) ∧ entry.2.Rejected entry.1 fault := by
  by_cases hstore : store.Resolves
  · obtain ⟨default, hdefault⟩ := hstore
    have hresolves : store.Resolves := ⟨default, hdefault⟩
    unfold compile
    rw [Keyed.ofList_eq_remaining, hdefault]
    change List.mapM _ _ = _ ↔ _
    rw [mapM_eq_error_iff]
    simp only [TokenSpec.compile_eq_error_iff, TokenSpec.exists_compile_eq_ok_iff, hresolves,
      not_true_eq_false, false_and, false_or, true_and]
  · unfold compile
    rw [Encoder.resolve_of_not_resolves hstore]
    simp only [hstore, not_false_eq_true, true_and, false_and, or_false]
    exact ⟨fun h => (Except.error.inj h).symm, fun h => h ▸ rfl⟩

/-- **A table is compiled exactly if its default resolves and every definition that remains can be
used.** -/
theorem exists_compile_eq_ok_iff : (∃ table, compile definitions store = .ok table)
    ↔ store.Resolves ∧ ∀ entry ∈ remaining definitions, entry.2.Valid := by
  constructor
  · rintro ⟨table, h⟩
    obtain ⟨default, hdefault, hall⟩ := compile_eq_ok_iff.mp h
    have hvalid := hall.imp fun _ _ h => And.intro (TokenSpec.valid_of_compiledFrom h) h
    exact ⟨⟨default, hdefault⟩, (List.forall₂_and_left _ _).mp hvalid |>.1⟩
  · rintro ⟨hstore, hvalid⟩
    cases h : compile definitions store with
    | ok table => exact ⟨table, rfl⟩
    | error fault =>
      obtain ⟨hbad, -⟩ | ⟨-, before, entry, after, hsplit, -, hrejected⟩ :=
        compile_eq_error_iff.mp h
      · exact absurd hstore hbad
      · refine absurd (hvalid entry ?_) (TokenSpec.not_valid_of_rejected hrejected)
        rw [hsplit]
        exact List.mem_append_right before List.mem_cons_self

/-- **The tokens of a compiled table have the names that were defined**, in the order in which they
first appeared. -/
theorem names_of_compile (h : compile definitions store = .ok table) :
    table.map TokenSpec.name = (definitions.map Prod.fst).eraseDups := by
  obtain ⟨default, -, hall⟩ := compile_eq_ok_iff.mp h
  have hnames : List.Forall₂ (· = ·) ((remaining definitions).map Prod.fst)
      (table.map TokenSpec.name) :=
    List.forall₂_map_left_iff.mpr
      (List.forall₂_map_right_iff.mpr (hall.imp fun _ _ hentry => hentry.name_eq.symm))
  rw [List.forall₂_eq_eq_eq] at hnames
  rw [← hnames, ← Keyed.ofList_eq_remaining]
  exact Keyed.keys_ofList definitions

/-- Every token of a compiled table is that of a definition. -/
theorem exists_compiledFrom_of_mem (h : compile definitions store = .ok table) {spec : TokenSpec}
    (hspec : spec ∈ table) : ∃ default, Encoder.resolve store = .ok default
      ∧ ∃ entry ∈ remaining definitions, TokenSpec.CompiledFrom default entry.1 entry.2 spec := by
  obtain ⟨default, hdefault, hall⟩ := compile_eq_ok_iff.mp h
  have hcompile := mapM_eq_ok_iff.mpr
    (hall.imp fun _ _ hentry => TokenSpec.compile_of_compiledFrom hentry)
  obtain ⟨entry, hentry, hfrom⟩ := exists_of_mem_mapM hcompile hspec
  exact ⟨default, hdefault, entry, hentry, TokenSpec.compile_eq_ok_iff.mp hfrom⟩

/-- **The encoders of a compiled table are complete**, if those that were brought along are. -/
theorem complete_of_compile (h : compile definitions store = .ok table) (hstore : store.Complete)
    (hown : ∀ entry ∈ remaining definitions, ∀ own, entry.2.ownStore? = some own → own.Complete) :
    ∀ spec ∈ table, spec.encoder.Complete := by
  intro spec hspec
  obtain ⟨default, hdefault, entry, hentry, hfrom⟩ := exists_compiledFrom_of_mem h hspec
  cases ho : entry.2.ownStore? with
  | none =>
    rw [hfrom.default_eq ho]
    exact Encoder.complete_of_resolve hstore hdefault
  | some own => exact Encoder.complete_of_resolve (hown entry hentry own ho) (hfrom.own own ho)

/-- **What comes of compiling a table.** A table is compiled exactly if its default store mode
resolves and every definition that remains can be used, and then it has the token of each, in their
order. If it is not compiled, that is because of its default, or else because of the first
definition with a mistake, and the fault is the first mistake of that.

With a compiled table, looking for a token fails only because the buffer cannot be grown or because
a pattern matches the empty text. Storing a value fails only because a callback does, provided that
the encoders that were brought along ready-made are complete. -/
theorem compile_follows_entries (definitions : List (String × Setting)) (store : Setting) :
    ((∃ table, compile definitions store = .ok table)
        ↔ store.Resolves ∧ ∀ entry ∈ remaining definitions, entry.2.Valid)
      ∧ (∀ table, compile definitions store = .ok table
        ↔ ∃ default, Encoder.resolve store = .ok default
          ∧ List.Forall₂ (fun entry spec => TokenSpec.CompiledFrom default entry.1 entry.2 spec)
            (remaining definitions) table)
      ∧ (∀ fault, compile definitions store = .error fault
        ↔ ¬ store.Resolves ∧ fault = .unknownStore store.shown
          ∨ store.Resolves ∧ ∃ before entry after, remaining definitions = before ++ entry :: after
            ∧ (∀ earlier ∈ before, earlier.2.Valid) ∧ entry.2.Rejected entry.1 fault)
      ∧ ∀ table, compile definitions store = .ok table →
        table.map TokenSpec.name = (definitions.map Prod.fst).eraseDups
          ∧ (∀ spec ∈ table, ∀ b fault b', spec.seek b = .error fault b' →
            (∃ growths b₁, Buffer.growTimes growths b = .ok () b₁
              ∧ Buffer.grow b₁ = .error fault b')
            ∨ fault = .emptyMatch spec.name)
          ∧ (store.Complete →
            (∀ entry ∈ remaining definitions, ∀ own, entry.2.ownStore? = some own → own.Complete) →
            ∀ spec ∈ table, ∀ text calls fault calls',
              spec.encode text calls = .error fault calls' →
              ∃ callback, spec.encoder = .known .custom (some callback)
                ∧ callback.answer calls spec.name text = .error fault) := by
  refine ⟨exists_compile_eq_ok_iff, fun _ => compile_eq_ok_iff, fun _ => compile_eq_error_iff,
    fun table h => ⟨names_of_compile h, ?_, ?_⟩⟩
  · intro spec hspec b fault b'
    exact TokenSpec.seek_fails (usable_of_compile h spec hspec)
  · intro hstore hown spec hspec text calls fault calls'
    exact Encoder.encode_fails (complete_of_compile h hstore hown spec hspec)

/-! ## Definitions in both forms -/

namespace Mixed

/-- A name that is given twice, and definitions in both forms. -/
def usable : List (String × Setting) :=
  [("NOT", .text "not"),
    ("AND", .entries [("match", .text "&&"), ("store", .mode .tuple)]),
    ("NOT", .entries [("match", .text "!"), ("store", .null)])]

/-- The tokens that these definitions stand for. -/
def tokens : TokenTable :=
  [⟨"NOT", .singleChar "!".toList, .known .scalar none⟩,
    ⟨"AND", .literal "&&".toList, .known .tuple none⟩]

/-- Several mistakes at once. -/
def mistaken : List (String × Setting) :=
  [("NOT", .text "!"),
    ("AND", .entries [("match", .text ""), ("store", .mode .custom)]),
    ("OR", .null)]

end Mixed

/-- A name that is given twice counts once, with its last definition. Of several mistakes the first
one is told, and an unknown store mode comes before an empty string. -/
theorem compile_follows_entries_mixed :
    compile Mixed.usable (.mode .scalar) = .ok Mixed.tokens
      ∧ compile Mixed.mistaken (.mode .scalar) = .error (.unknownStore StoreMode.custom.shown)
      ∧ Mixed.tokens.map TokenSpec.name = ["NOT", "AND"]
      ∧ (∀ spec ∈ Mixed.tokens, ∀ b fault b', spec.seek b = .error fault b' →
        (∃ growths b₁, Buffer.growTimes growths b = .ok () b₁ ∧ Buffer.grow b₁ = .error fault b')
          ∨ fault = .emptyMatch spec.name)
      ∧ ∀ spec ∈ Mixed.tokens, ∀ text calls fault calls',
        spec.encode text calls = .error fault calls' →
          ∃ callback, spec.encoder = .known .custom (some callback)
            ∧ callback.answer calls spec.name text = .error fault := by
  have hdefault : Encoder.resolve (.mode .scalar) = .ok (.known .scalar none) := rfl
  have hremaining : remaining Mixed.usable
      = [("NOT", .entries [("match", .text "!"), ("store", .null)]),
        ("AND", .entries [("match", .text "&&"), ("store", .mode .tuple)])] := rfl
  obtain ⟨-, hok, -, hfails⟩ := compile_follows_entries Mixed.usable (.mode .scalar)
  have hcompile : compile Mixed.usable (.mode .scalar) = .ok Mixed.tokens := by
    refine (hok _).mpr ⟨_, hdefault, ?_⟩
    rw [hremaining]
    refine .cons ⟨rfl, ⟨.text "!", rfl, .singleChar rfl⟩, nofun, fun _ => rfl⟩
      (.cons ⟨rfl, ⟨.text "&&", rfl, .literal (Nat.le_refl 2)⟩, ?_, nofun⟩ .nil)
    rintro _ ⟨⟩
    rfl
  obtain ⟨hnames, hseek, hencode⟩ := hfails _ hcompile
  refine ⟨hcompile, ?_, hnames, hseek, hencode nofun ?_⟩
  · obtain ⟨-, -, hfirst, -⟩ := compile_follows_entries Mixed.mistaken (.mode .scalar)
    have hbad : ¬ (Setting.mode .custom).Resolves := fun ⟨_, h⟩ => by cases h
    have hsubject : (Setting.entries [("match", .text ""), ("store", .mode .custom)]).subject?
        = some (.text "") := rfl
    refine (hfirst _).mpr (.inr ⟨⟨_, hdefault⟩, [("NOT", .text "!")], ("AND", _), _, rfl, ?_,
      .unknownStore hsubject rfl hbad⟩)
    intro earlier hearlier
    rw [List.mem_singleton.mp hearlier]
    exact ⟨⟨.text "!", rfl, .inl ⟨"!", rfl, by decide⟩⟩, nofun⟩
  · rw [hremaining]
    simp only [List.forall_mem_cons]
    refine ⟨nofun, ?_, nofun⟩
    rintro _ ⟨⟩
    exact nofun

end TokenTable

end AmbiLex
