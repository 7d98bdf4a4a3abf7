import Mathlib

/-!
# Sealed formats

An AEAD without forgeries opens what was sealed, as it was sealed, and nothing else: `Aead.Ideal`
says so for a log of its uses. A `Format` puts a clear part, a nonce and a sealed text together
and takes them apart again; the key and the associated data of a text depend on its clear part.

What an opener accepts is then a matter of the log alone (`openAs_iff`), and a text that was
sealed under one key or associated data opens under no other (`openAs_of_ne`).
-/

namespace Sealing

variable {K N B P : Type}

/-- One use of an AEAD. -/
structure Call (K N B : Type) where
  key : K
  aad : B
  nonce : N
  plain : B
  deriving DecidableEq

structure Aead (K N B : Type) where
  sealed : K → B → N → B → B
  opened : K → B → N → B → Option B

namespace Aead

variable (s : Aead K N B)

/-- The sealed text of a use. -/
def text (call : Call K N B) : B := s.sealed call.key call.aad call.nonce call.plain

/-- The AEAD opens the uses of the log and nothing else, and different uses have different
texts. -/
structure Ideal (log : Set (Call K N B)) : Prop where
  opened_iff : ∀ key aad nonce ct pt, s.opened key aad nonce ct = some pt ↔
    (⟨key, aad, nonce, pt⟩ : Call K N B) ∈ log ∧ ct = s.sealed key aad nonce pt
  text_inj : Set.InjOn s.text log

variable {s} {log : Set (Call K N B)}

theorem Ideal.opened_sealed (ideal : s.Ideal log) {call : Call K N B} (mem : call ∈ log) :
    s.opened call.key call.aad call.nonce (s.text call) = some call.plain :=
  (ideal.opened_iff _ _ _ _ _).mpr ⟨mem, rfl⟩

/-- A sealed text opens only as the use that it is the text of. -/
theorem Ideal.eq_of_opened (ideal : s.Ideal log) {call : Call K N B} (mem : call ∈ log)
    {key : K} {aad : B} {nonce : N} {pt : B}
    (opened : s.opened key aad nonce (s.text call) = some pt) : ⟨key, aad, nonce, pt⟩ = call := by
  obtain ⟨mem', same⟩ := (ideal.opened_iff _ _ _ _ _).mp opened
  exact (ideal.text_inj mem mem' same).symm

/-- If no nonce is used twice, what opens with the nonce or the text of a use is that use. -/
theorem Ideal.eq_of_shared (ideal : s.Ideal log) (fresh : Set.InjOn Call.nonce log)
    {call : Call K N B} (mem : call ∈ log) {key : K} {aad : B} {nonce : N} {pt : B}
    (mem' : (⟨key, aad, nonce, pt⟩ : Call K N B) ∈ log)
    (shared : nonce = call.nonce ∨ s.sealed key aad nonce pt = s.text call) :
    ⟨key, aad, nonce, pt⟩ = call := by
  obtain nonces | texts := shared
  · exact fresh mem' mem nonces
  · exact ideal.text_inj mem' mem texts

section Recorded

variable [DecidableEq K] [DecidableEq N] [DecidableEq B]

/-- The AEAD of a table of uses and their texts. What is not in the table is sealed as a spare text,
and a text that is not in it is read as one. -/
def extended (table : List (Call K N B × B)) (spare : K → B → B) (unspare : K → B → Option B) :
    Aead K N B where
  sealed key aad nonce plain :=
    (table.find? fun e => decide (e.1.key = key ∧ e.1.aad = aad ∧ e.1.nonce = nonce ∧
      e.1.plain = plain)).elim (spare key plain) Prod.snd
  opened key aad nonce ct :=
    (table.find? fun e => decide (e.1.key = key ∧ e.1.aad = aad ∧ e.1.nonce = nonce ∧
      e.2 = ct)).elim (unspare key ct) fun e => some e.1.plain

/-- It opens the texts of the table and no other. -/
def recorded (table : List (Call K N B × B)) (spare : B → B) : Aead K N B :=
  extended table (fun _ => spare) fun _ _ => none

variable {table : List (Call K N B × B)} {spare : B → B} {spares : K → B → B}
  {unspare : K → B → Option B}

/-- A sealed text is a recorded one or a spare one. -/
theorem extended_cases (table : List (Call K N B × B)) (spares : K → B → B)
    (unspare : K → B → Option B) (call : Call K N B) :
    (∃ ct, (call, ct) ∈ table ∧ (extended table spares unspare).text call = ct) ∨
      (∀ ct, (call, ct) ∉ table) ∧
        (extended table spares unspare).text call = spares call.key call.plain := by
  obtain ⟨key, aad, nonce, plain⟩ := call
  change (∃ ct, _ ∧ (table.find? _).elim _ _ = _) ∨ _ ∧ (table.find? _).elim _ _ = _
  cases found : table.find? fun e => decide (e.1.key = key ∧ e.1.aad = aad ∧ e.1.nonce = nonce ∧
      e.1.plain = plain) with
  | none =>
      refine .inr ⟨fun ct mem => ?_, rfl⟩
      exact absurd (decide_eq_true ⟨rfl, rfl, rfl, rfl⟩) (List.find?_eq_none.mp found _ mem)
  | some e =>
      obtain ⟨⟨key', aad', nonce', plain'⟩, ct⟩ := e
      have here := List.find?_some found
      have mem := List.mem_of_find?_eq_some found
      simp only [decide_eq_true_eq] at here
      obtain ⟨rfl, rfl, rfl, rfl⟩ := here
      exact .inl ⟨ct, mem, rfl⟩

theorem recorded_cases (table : List (Call K N B × B)) (spare : B → B) (call : Call K N B) :
    (∃ ct, (call, ct) ∈ table ∧ (recorded table spare).text call = ct) ∨
      (∀ ct, (call, ct) ∉ table) ∧ (recorded table spare).text call = spare call.plain :=
  extended_cases table _ _ call

/-- A text opens to the use that it is recorded for, or as a spare one. -/
theorem extended_opened_cases (table : List (Call K N B × B)) (spares : K → B → B)
    (unspare : K → B → Option B) (key : K) (aad : B) (nonce : N) (ct : B) :
    (∃ plain, ((⟨key, aad, nonce, plain⟩ : Call K N B), ct) ∈ table ∧
        (extended table spares unspare).opened key aad nonce ct = some plain) ∨
      (∀ plain, ((⟨key, aad, nonce, plain⟩ : Call K N B), ct) ∉ table) ∧
        (extended table spares unspare).opened key aad nonce ct = unspare key ct := by
  change (∃ plain, _ ∧ (table.find? _).elim _ _ = _) ∨ _ ∧ (table.find? _).elim _ _ = _
  cases found : table.find? fun e => decide (e.1.key = key ∧ e.1.aad = aad ∧ e.1.nonce = nonce ∧
      e.2 = ct) with
  | none =>
      refine .inr ⟨fun plain mem => ?_, rfl⟩
      exact absurd (decide_eq_true ⟨rfl, rfl, rfl, rfl⟩) (List.find?_eq_none.mp found _ mem)
  | some e =>
      obtain ⟨⟨key', aad', nonce', plain⟩, ct'⟩ := e
      have here := List.find?_some found
      have mem := List.mem_of_find?_eq_some found
      simp only [decide_eq_true_eq] at here
      obtain ⟨rfl, rfl, rfl, rfl⟩ := here
      exact .inl ⟨plain, mem, rfl⟩

/-- A spare text is read as what it was made of, under its key and no other way under any; no
recorded text is read as a spare one, and it determines what is in it. -/
structure Spares (table : List (Call K N B × B)) (spares : K → B → B)
    (unspare : K → B → Option B) : Prop where
  reads : ∀ key plain, unspare key (spares key plain) = some plain
  committing : ∀ key key' plain plain', unspare key' (spares key plain) = some plain' →
    plain' = plain
  apart : ∀ e ∈ table, ∀ key, unspare key e.2 = none
  texts : ∀ e ∈ table, ∀ e' ∈ table, e.2 = e'.2 → e.1.plain = e'.1.plain

/-- Whatever a sealed text opens to is what was sealed in it. -/
theorem Spares.eq_of_opened (h : Spares table spares unspare) {key key' : K} {aad aad' : B}
    {nonce nonce' : N} {plain plain' : B}
    (opened : (extended table spares unspare).opened key' aad' nonce'
      ((extended table spares unspare).sealed key aad nonce plain) = some plain') :
    plain' = plain := by
  obtain ⟨ct, mem, text⟩ | ⟨-, text⟩ := extended_cases table spares unspare ⟨key, aad, nonce, plain⟩
  · have sealed : (extended table spares unspare).sealed key aad nonce plain = ct := text
    rw [sealed] at opened
    obtain ⟨other, mem', reads⟩ | ⟨-, reads⟩ :=
      extended_opened_cases table spares unspare key' aad' nonce' ct
    · rw [reads] at opened
      cases opened
      exact h.texts _ mem' _ mem rfl
    · rw [reads, h.apart _ mem] at opened
      cases opened
  · have sealed : (extended table spares unspare).sealed key aad nonce plain = spares key plain :=
      text
    rw [sealed] at opened
    obtain ⟨other, mem', reads⟩ | ⟨-, reads⟩ :=
      extended_opened_cases table spares unspare key' aad' nonce' (spares key plain)
    · have none_ := h.apart _ mem' key
      rw [h.reads] at none_
      cases none_
    · rw [reads] at opened
      exact h.committing _ _ _ _ opened

/-- A sealed text opens. -/
theorem Spares.opened_sealed (h : Spares table spares unspare) (key : K) (aad : B) (nonce : N)
    (plain : B) : (extended table spares unspare).opened key aad nonce
      ((extended table spares unspare).sealed key aad nonce plain) = some plain := by
  have opens : ∃ plain', (extended table spares unspare).opened key aad nonce
      ((extended table spares unspare).sealed key aad nonce plain) = some plain' := by
    obtain ⟨other, -, reads⟩ | ⟨missing, reads⟩ := extended_opened_cases table spares unspare key
      aad nonce ((extended table spares unspare).sealed key aad nonce plain)
    · exact ⟨other, reads⟩
    · obtain ⟨ct, mem, rfl⟩ | ⟨-, text⟩ :=
        extended_cases table spares unspare ⟨key, aad, nonce, plain⟩
      · exact absurd mem (missing plain)
      · exact ⟨plain, reads.trans ((congrArg (unspare key) text).trans (h.reads key plain))⟩
  obtain ⟨plain', opened⟩ := opens
  rw [opened, h.eq_of_opened opened]

theorem recorded_text (uses : (table.map Prod.fst).Nodup) {call : Call K N B} {ct : B}
    (mem : (call, ct) ∈ table) : (recorded table spare).text call = ct := by
  obtain ⟨ct', mem', text⟩ | ⟨missing, -⟩ := recorded_cases table spare call
  · have same := List.inj_on_of_nodup_map uses mem mem' rfl
    exact text.trans (congrArg Prod.snd same).symm
  · exact absurd mem (missing ct)

/-- A table without repetitions is an ideal AEAD for its uses. -/
theorem ideal_recorded (uses : (table.map Prod.fst).Nodup) (texts : (table.map Prod.snd).Nodup) :
    (recorded table spare).Ideal {call | ∃ ct, (call, ct) ∈ table} where
  opened_iff key aad nonce ct pt := by
    constructor
    · intro opened
      obtain ⟨plain, mem, reads⟩ | ⟨-, reads⟩ :=
        extended_opened_cases table (fun _ => spare) (fun _ _ => none) key aad nonce ct
      · cases reads.symm.trans opened
        exact ⟨⟨ct, mem⟩, (recorded_text uses mem).symm⟩
      · cases reads.symm.trans opened
    · rintro ⟨⟨ct', mem⟩, rfl⟩
      have text : (recorded table spare).sealed key aad nonce pt = ct' := recorded_text uses mem
      rw [text]
      obtain ⟨plain, mem', reads⟩ | ⟨missing, -⟩ :=
        extended_opened_cases table (fun _ => spare) (fun _ _ => none) key aad nonce ct'
      · cases List.inj_on_of_nodup_map texts mem' mem rfl
        exact reads
      · exact absurd mem (missing pt)
  text_inj := by
    rintro call ⟨ct, mem⟩ call' ⟨ct', mem'⟩ same
    rw [recorded_text uses mem, recorded_text uses mem'] at same
    exact congrArg Prod.fst (List.inj_on_of_nodup_map texts mem mem' same)

omit [DecidableEq K] [DecidableEq N] [DecidableEq B] in
/-- If no nonce is recorded twice, no nonce is used twice. -/
theorem nonce_injOn_recorded (nonces : (table.map fun e => e.1.nonce).Nodup) :
    Set.InjOn Call.nonce {call | ∃ ct, (call, ct) ∈ table} := by
  rintro call ⟨ct, mem⟩ call' ⟨ct', mem'⟩ same
  exact congrArg Prod.fst (List.inj_on_of_nodup_map nonces mem mem' same)

end Recorded

end Aead

/-- A layout of a clear part, a nonce and a sealed text. -/
structure Format (N B P : Type) where
  Fits : P → B → Prop
  join : P → N → B → B
  split : B → Option (P × N × B)
  split_iff : ∀ b p n ct, split b = some (p, n, ct) ↔ Fits p ct ∧ join p n ct = b

namespace Format

variable (f : Format N B P) (s : Aead K N B) (key : P → K) (aad : P → B)

def sealAs (p : P) (n : N) (pt : B) : B := f.join p n (s.sealed (key p) (aad p) n pt)

def openAs (b : B) : Option B :=
  (f.split b).bind fun parts => s.opened (key parts.1) (aad parts.1) parts.2.1 parts.2.2

variable {f s key aad} {log : Set (Call K N B)}

theorem openAs_join {p : P} {n : N} {ct : B} (fits : f.Fits p ct) :
    f.openAs s key aad (f.join p n ct) = s.opened (key p) (aad p) n ct := by
  rw [openAs, (f.split_iff _ _ _ _).mpr ⟨fits, rfl⟩, Option.bind_some]

/-- What an opener accepts was sealed, and is what was sealed byte for byte. -/
theorem openAs_iff (ideal : s.Ideal log) {b pt : B} :
    f.openAs s key aad b = some pt ↔ ∃ p n, (⟨key p, aad p, n, pt⟩ : Call K N B) ∈ log ∧
      f.Fits p (s.sealed (key p) (aad p) n pt) ∧ f.sealAs s key aad p n pt = b := by
  constructor
  · intro opens
    obtain ⟨⟨p, n, ct⟩, cut, opens⟩ := Option.bind_eq_some_iff.mp opens
    obtain ⟨fits, whole⟩ := (f.split_iff _ _ _ _).mp cut
    obtain ⟨mem, text⟩ := (ideal.opened_iff _ _ _ _ _).mp opens
    dsimp only at mem text
    rw [text] at fits whole
    exact ⟨p, n, mem, fits, whole⟩
  · rintro ⟨p, n, mem, fits, rfl⟩
    rw [sealAs, openAs_join fits]
    exact ideal.opened_sealed mem

theorem openAs_sealAs (ideal : s.Ideal log) {p : P} {n : N} {pt : B}
    (mem : (⟨key p, aad p, n, pt⟩ : Call K N B) ∈ log)
    (fits : f.Fits p (s.sealed (key p) (aad p) n pt)) :
    f.openAs s key aad (f.sealAs s key aad p n pt) = some pt :=
  (openAs_iff ideal).mpr ⟨p, n, mem, fits, rfl⟩

/-- A sealed text opens under no other key and no other associated data. -/
theorem openAs_of_ne (ideal : s.Ideal log) {p : P} {n : N} {pt : B}
    (mem : (⟨key p, aad p, n, pt⟩ : Call K N B) ∈ log)
    (fits : f.Fits p (s.sealed (key p) (aad p) n pt)) {key' : P → K} {aad' : P → B}
    (other : key' p ≠ key p ∨ aad' p ≠ aad p) :
    f.openAs s key' aad' (f.sealAs s key aad p n pt) = none := by
  rw [sealAs, openAs_join fits, Option.eq_none_iff_forall_ne_some]
  intro pt' opens
  have same := ideal.eq_of_opened mem opens
  obtain keys | aads := other
  · exact keys (congrArg Call.key same)
  · exact aads (congrArg Call.aad same)

/-- The format puts a front, the nonce and the text one after another, and the length of the whole
tells the length of the front. -/
structure Laid {α : Type} (f : Format N (List α) P) (front : P → List α) (mid : N → List α)
    (width : Nat) : Prop where
  join_eq : ∀ p n ct, f.join p n ct = front p ++ mid n ++ ct
  mid_length : ∀ n, (mid n).length = width
  mid_inj : Function.Injective mid
  rigid : ∀ {p p' ct ct'}, f.Fits p ct → f.Fits p' ct' →
    (front p).length + ct.length = (front p').length + ct'.length →
      (front p).length = (front p').length

/-- A sealed text opens under no key when one entry of it is changed, if no nonce is used twice. -/
theorem Laid.openAs_set {α : Type} {f : Format N (List α) P} {s : Aead K N (List α)}
    {log : Set (Call K N (List α))} {front : P → List α} {mid : N → List α} {width : Nat}
    (laid : f.Laid front mid width) (ideal : s.Ideal log) (fresh : Set.InjOn Call.nonce log)
    {key key' : P → K} {aad aad' : P → List α} {p : P} {n : N} {pt : List α}
    (mem : (⟨key p, aad p, n, pt⟩ : Call K N (List α)) ∈ log)
    (fits : f.Fits p (s.sealed (key p) (aad p) n pt))
    (bound : ∀ p', aad' p' = aad p → front p' = front p) {i : Nat} {x : α}
    (changed : (f.sealAs s key aad p n pt).set i x ≠ f.sealAs s key aad p n pt) :
    f.openAs s key' aad' ((f.sealAs s key aad p n pt).set i x) = none := by
  rw [Option.eq_none_iff_forall_ne_some]
  intro pt' opens
  obtain ⟨p', n', mem', fits', whole⟩ := (openAs_iff ideal).mp opens
  rw [sealAs, sealAs, laid.join_eq, laid.join_eq] at whole
  rw [sealAs, laid.join_eq] at changed
  have lengths := congrArg List.length whole
  simp only [List.length_set, List.length_append, laid.mid_length] at lengths
  have fronts : (front p').length = (front p).length := laid.rigid fits' fits (by omega)
  have cut : (front p ++ mid n).length = (front p).length + width := by
    rw [List.length_append, laid.mid_length]
  have cut' : (front p' ++ mid n').length = (front p).length + width := by
    rw [List.length_append, laid.mid_length, fronts]
  -- the entry is in the text, or the text is as it was
  have shared : n' = n ∨ s.sealed (key' p') (aad' p') n' pt' = s.sealed (key p) (aad p) n pt := by
    by_cases early : i < (front p).length + width
    · have texts := congrArg (List.drop ((front p).length + width)) whole
      rw [List.drop_left' cut', List.drop_set_of_lt early, List.drop_left' cut] at texts
      exact .inr texts
    · have heads := congrArg (List.take ((front p).length + width)) whole
      rw [List.take_left' cut', List.take_set_of_le (Nat.le_of_not_lt early),
        List.take_left' cut] at heads
      exact .inl (laid.mid_inj (List.append_inj heads fronts).2)
  have same := ideal.eq_of_shared fresh mem mem' shared
  injection same with keys aads nonces plains
  rw [keys, aads, nonces, plains, bound p' aads] at whole
  exact changed whole.symm

/-- The parts of a joined string are determined by it. -/
theorem join_inj {p p' : P} {n n' : N} {ct ct' : B} (fits : f.Fits p ct) (fits' : f.Fits p' ct')
    (same : f.join p n ct = f.join p' n' ct') : p = p' ∧ n = n' ∧ ct = ct' := by
  have cut := (f.split_iff _ _ _ _).mpr ⟨fits, same⟩
  rw [(f.split_iff _ _ _ _).mpr ⟨fits', rfl⟩, Option.some.injEq, Prod.mk.injEq,
    Prod.mk.injEq] at cut
  obtain ⟨rfl, rfl, rfl⟩ := cut
  exact ⟨rfl, rfl, rfl⟩

end Format

end Sealing
