import CursorScript.BuiltIn
import CursorScript.Library.Standard
import CursorScript.Proofs.Configuration

/-!
Maps and the insertions that made them. Keys without reals are equal only to themselves, so a map
keeps one entry for each key that was ever inserted, in the order of the first insertions and with
the value of the last one. What scripts can ask of a map agrees with that.
-/
namespace CursorScript

namespace Value

mutual

def isRealFree : Value → Bool
  | real _ => false
  | list items => allRealFree items
  | map entries => entriesRealFree entries
  | _ => true

def allRealFree : List Value → Bool
  | [] => true
  | v :: rest => isRealFree v && allRealFree rest

def entriesRealFree : List (Value × Value) → Bool
  | [] => true
  | (k, v) :: rest => isRealFree k && isRealFree v && entriesRealFree rest

end

mutual

/-- A value without reals is equal to no value but itself. -/
theorem equal_iff : ∀ a b : Value, a.isRealFree = true → (a.equal b = true ↔ a = b)
  | number _, b, _ => by cases b <;> simp [equal]
  | real _, _, plain => nomatch plain
  | logic _, b, _ => by cases b <;> simp [equal]
  | string _, b, _ => by cases b <;> simp [equal]
  | material _, b, _ => by cases b <;> simp [equal]
  | literal _, b, _ => by cases b <;> simp [equal]
  | list items, b, plain => by
    cases b with
    | list others => simpa [equal] using equalLists_iff items others plain
    | _ => simp [equal]
  | map entries, b, plain => by
    cases b with
    | map others => simpa [equal] using equalEntries_iff entries others plain
    | _ => simp [equal]
  | unit, b, _ => by cases b <;> simp [equal]

theorem equalLists_iff : ∀ as bs : List Value, allRealFree as = true →
    (equalLists as bs = true ↔ as = bs)
  | [], bs, _ => by cases bs <;> simp [equalLists]
  | a :: as, [], _ => by simp [equalLists]
  | a :: as, b :: bs, plain => by
    obtain ⟨first, others⟩ := Bool.and_eq_true_iff.1 plain
    rw [equalLists, Bool.and_eq_true, equal_iff a b first, equalLists_iff as bs others,
      List.cons.injEq]

theorem equalEntries_iff : ∀ as bs : List (Value × Value), entriesRealFree as = true →
    (equalEntries as bs = true ↔ as = bs)
  | [], bs, _ => by cases bs <;> simp [equalEntries]
  | (k, a) :: as, [], _ => by simp [equalEntries]
  | (k, a) :: as, (l, b) :: bs, plain => by
    obtain ⟨first, others⟩ := Bool.and_eq_true_iff.1 plain
    obtain ⟨key, value⟩ := Bool.and_eq_true_iff.1 first
    rw [equalEntries, Bool.and_eq_true, Bool.and_eq_true, equal_iff k l key, equal_iff a b value,
      equalEntries_iff as bs others, List.cons.injEq, Prod.mk.injEq]

end

def PlainKeys (m : List (Value × Value)) : Prop := ∀ entry ∈ m, entry.1.isRealFree = true

section insertion
variable {m : List (Value × Value)} {key value k v : Value}

theorem lookup?_insertEntry (plain : PlainKeys m) (plainKey : key.isRealFree = true) :
    lookup? (insertEntry key value m) k =
      if key.equal k then some value else lookup? m k := by
  induction m with
  | nil =>
    cases same : key.equal k <;> simp [insertEntry, lookup?, same]
  | cons entry rest ih =>
    obtain ⟨first, others⟩ := List.forall_mem_cons.1 plain
    obtain ⟨l, old⟩ := entry
    unfold insertEntry
    split
    · next here =>
      obtain rfl := (equal_iff l key first).1 here
      cases same : l.equal k <;> simp [lookup?, same]
    · next apart =>
      have inner := ih others
      simp only [lookup?, List.find?_cons] at inner ⊢
      cases same : l.equal k with
      | false => exact inner
      | true =>
        obtain rfl := (equal_iff l k first).1 same
        have differ : key.equal l = false := by
          rw [Bool.eq_false_iff]
          intro equal
          obtain rfl := (equal_iff key l plainKey).1 equal
          exact apart same
        simp [differ]

theorem hasKey_iff (plain : PlainKeys m) : hasKey m k = true ↔ k ∈ keysOf m := by
  rw [hasKey, lookup?, Option.isSome_map, List.find?_isSome, keysOf, List.mem_map]
  refine exists_congr fun entry => and_congr_right fun mem => ?_
  exact equal_iff entry.1 k (plain entry mem)

theorem lookup?_eq_none_iff (plain : PlainKeys m) : lookup? m k = none ↔ k ∉ keysOf m := by
  rw [← hasKey_iff plain, hasKey, Option.not_isSome_iff_eq_none]

theorem keysOf_insertEntry (key value : Value) (m : List (Value × Value)) :
    keysOf (insertEntry key value m) = if hasKey m key then keysOf m else keysOf m ++ [key] := by
  induction m with
  | nil => simp [insertEntry, keysOf, hasKey, lookup?]
  | cons entry rest ih =>
    obtain ⟨l, old⟩ := entry
    unfold insertEntry
    split
    · next here => simp [keysOf, hasKey, lookup?, here]
    · next apart =>
      have miss : l.equal key = false := Bool.eq_false_iff.2 apart
      have skipped : hasKey ((l, old) :: rest) key = hasKey rest key := by
        simp [hasKey, lookup?, miss]
      rw [skipped]
      simp only [keysOf, List.map_cons] at ih ⊢
      rw [ih]
      split <;> simp

theorem plainKeys_insertEntry (plain : PlainKeys m) (plainKey : key.isRealFree = true) :
    PlainKeys (insertEntry key value m) := by
  intro entry mem
  have listed : entry.1 ∈ keysOf (insertEntry key value m) := List.mem_map_of_mem mem
  have old : ∀ k ∈ keysOf m, k.isRealFree = true := fun k known => by
    obtain ⟨other, held, rfl⟩ := List.mem_map.1 known
    exact plain other held
  rw [keysOf_insertEntry] at listed
  split at listed
  · exact old _ listed
  · rcases List.mem_append.1 listed with known | new
    · exact old _ known
    · rw [List.mem_singleton.1 new]
      exact plainKey

end insertion

def insertAll (m : List (Value × Value)) (pairs : List (Value × Value)) : List (Value × Value) :=
  pairs.foldl (fun entries pair => insertEntry pair.1 pair.2 entries) m

def firstInsertion (history : List (Value × Value)) (k : Value) : Nat :=
  history.findIdx fun pair => pair.1.equal k

def LastUnder (history : List (Value × Value)) (k v : Value) : Prop :=
  ∃ before behind, history = before ++ (k, v) :: behind ∧ ∀ pair ∈ behind, pair.1 ≠ k

/-- A map has what some insertions leave: each key that was inserted, in the order of the first
insertions, with the value that was inserted last. -/
structure Remembers (history m : List (Value × Value)) : Prop where
  keys : ∀ k, k ∈ keysOf m ↔ k ∈ history.map Prod.fst
  ordered : (keysOf m).Pairwise fun k l => firstInsertion history k < firstInsertion history l
  latest : ∀ k v, lookup? m k = some v ↔ LastUnder history k v

theorem lastUnder_concat {history : List (Value × Value)} {key value k v : Value} :
    LastUnder (history ++ [(key, value)]) k v ↔
      (key = k ∧ value = v) ∨ key ≠ k ∧ LastUnder history k v := by
  constructor
  · rintro ⟨before, behind, split, others⟩
    rcases List.eq_nil_or_concat behind with rfl | ⟨inner, pair, rfl⟩
    · obtain ⟨_, same⟩ := List.append_inj' split rfl
      simp only [List.cons.injEq, Prod.mk.injEq, and_true] at same
      exact .inl same
    · rw [List.concat_eq_append] at split others
      have regrouped : history ++ [(key, value)] = (before ++ (k, v) :: inner) ++ [pair] := by
        simpa using split
      obtain ⟨rfl, same⟩ := List.append_inj' regrouped rfl
      obtain rfl := (List.cons.inj same).1
      refine .inr ⟨others (key, value) (by simp), before, inner, rfl, fun pair mem => ?_⟩
      exact others pair (by simp [mem])
  · rintro (⟨rfl, rfl⟩ | ⟨apart, before, behind, rfl, others⟩)
    · exact ⟨history, [], rfl, by simp⟩
    · refine ⟨before, behind ++ [(key, value)], by simp, fun pair mem => ?_⟩
      rcases List.mem_append.1 mem with inner | last
      · exact others pair inner
      · cases List.mem_singleton.1 last
        exact apart

theorem firstInsertion_concat {history : List (Value × Value)} (plain : PlainKeys history)
    {k : Value} (known : k ∈ history.map Prod.fst) (pair : Value × Value) :
    firstInsertion (history ++ [pair]) k = firstInsertion history k := by
  obtain ⟨entry, mem, rfl⟩ := List.mem_map.1 known
  have found : history.findIdx (fun pair => pair.1.equal entry.1) < history.length :=
    List.findIdx_lt_length_of_exists ⟨entry, mem, (equal_iff _ _ (plain entry mem)).2 rfl⟩
  rw [firstInsertion, List.findIdx_append, if_pos found]
  rfl

/-- One more insertion. -/
theorem Remembers.insert {history m : List (Value × Value)} {key value : Value}
    (h : Remembers history m) (plain : PlainKeys history) (plainMap : PlainKeys m)
    (plainKey : key.isRealFree = true) :
    Remembers (history ++ [(key, value)]) (insertEntry key value m) := by
  have kept : (keysOf m).Pairwise fun k l => firstInsertion (history ++ [(key, value)]) k <
      firstInsertion (history ++ [(key, value)]) l := by
    refine h.ordered.imp_of_mem fun first second before => ?_
    rwa [firstInsertion_concat plain ((h.keys _).1 first),
      firstInsertion_concat plain ((h.keys _).1 second)]
  refine ⟨fun k => ?_, ?_, fun k v => ?_⟩
  · rw [keysOf_insertEntry, List.map_append, List.mem_append, ← h.keys]
    split
    · next known =>
      have there := (hasKey_iff plainMap).1 known
      constructor
      · exact .inl
      · rintro (old | new)
        · exact old
        · cases List.mem_singleton.1 new
          exact there
    · exact List.mem_append
  · rw [keysOf_insertEntry]
    split
    · exact kept
    · next unknown =>
      -- A new key is first inserted behind all the others.
      have new : key ∉ keysOf m := fun there => unknown ((hasKey_iff plainMap).2 there)
      have last : history.length ≤ firstInsertion (history ++ [(key, value)]) key := by
        rw [firstInsertion, List.findIdx_append, if_neg]
        · exact Nat.le_add_left _ _
        · intro found
          obtain ⟨entry, mem, same⟩ := List.findIdx_lt_length.1 found
          have inserted : entry.1 = key := (equal_iff _ _ (plain entry mem)).1 same
          exact new ((h.keys key).2 (inserted ▸ List.mem_map_of_mem mem))
      refine List.pairwise_append.2 ⟨kept, List.pairwise_singleton _ _, fun k known l mem => ?_⟩
      cases List.mem_singleton.1 mem
      have old := (h.keys k).1 known
      rw [firstInsertion_concat plain old]
      obtain ⟨entry, held, rfl⟩ := List.mem_map.1 old
      refine Nat.lt_of_lt_of_le (List.findIdx_lt_length_of_exists ⟨entry, held, ?_⟩) last
      exact (equal_iff _ _ (plain entry held)).2 rfl
  · rw [lookup?_insertEntry plainMap plainKey, lastUnder_concat, ← h.latest]
    by_cases same : key = k
    · rw [if_pos ((equal_iff key k plainKey).2 same)]
      simp [same]
    · have apart : key.equal k = false := by
        rw [Bool.eq_false_iff]
        exact fun equal => same ((equal_iff key k plainKey).1 equal)
      simp [apart, same]

/-- Whatever is inserted into a map after other insertions, the map has what all of them leave. -/
theorem remembers_insertAll {history m : List (Value × Value)} (h : Remembers history m)
    (plain : PlainKeys history) (plainMap : PlainKeys m) {pairs : List (Value × Value)}
    (plainPairs : PlainKeys pairs) :
    Remembers (history ++ pairs) (insertAll m pairs) ∧ PlainKeys (insertAll m pairs) := by
  induction pairs generalizing history m with
  | nil => exact ⟨(List.append_nil history).symm ▸ h, plainMap⟩
  | cons pair pairs ih =>
    obtain ⟨first, others⟩ := List.forall_mem_cons.1 plainPairs
    have longer : PlainKeys (history ++ [pair]) := by
      intro entry mem
      rcases List.mem_append.1 mem with old | new
      · exact plain entry old
      · cases List.mem_singleton.1 new
        exact first
    have next := ih (h.insert plain plainMap first) longer (plainKeys_insertEntry plainMap first)
      others
    rwa [List.append_assoc] at next

theorem remembers_nil : Remembers [] [] := by
  refine ⟨fun k => .rfl, .nil, fun k v => ⟨nofun, ?_⟩⟩
  rintro ⟨before, behind, split, _⟩
  simp at split

theorem remembers_entriesOf {pairs : List (Value × Value)} (plain : PlainKeys pairs) :
    Remembers pairs (entriesOf pairs) ∧ PlainKeys (entriesOf pairs) :=
  remembers_insertAll remembers_nil nofun nofun plain

end Value

namespace Work

/-- An item takes the values on top, of which the first is the oldest, and puts `v` in their place;
it changes nothing else. -/
def Answers (item : Work) (taken : List Value) (v : Value) : Prop :=
  ∀ (σ : Setting) (fs : List Frame) (W : List Work) (V : List Value) (c : Context),
    Machine.Next (σ.machine fs (item :: W) (taken.reverse ++ V), c) (σ.machine fs W (v :: V), c)

def FailsOn (item : Work) (taken : List Value) (e : Error) : Prop :=
  ∀ (σ : Setting) (fs : List Frame) (W : List Work) (V : List Value) (c : Context),
    ((σ.machine fs (item :: W) (taken.reverse ++ V)).step c).outcome = .error e

theorem answers_applyBinary {op : Operator} {left right result : Value}
    (h : op.applyBinary left right = .ok result) (p : Position) :
    (applyBinary op p).Answers [left, right] result := by
  intro σ fs W V c
  refine ⟨none, ?_⟩
  rw [Machine.step_item rfl]
  exact congrArg (Machine.Step.ofResult c) (Machine.perform_applyBinary h p)

theorem failsOn_applyBinary {op : Operator} {left right : Value} {cause : Cause}
    (h : op.applyBinary left right = .error cause) (p : Position) :
    (applyBinary op p).FailsOn [left, right] ⟨cause, p⟩ := by
  intro σ fs W V c
  rw [Machine.step_item rfl]
  exact congrArg (fun ran => (Machine.Step.ofResult c ran).outcome)
    (Machine.perform_applyBinary_error h p)

theorem answers_invoke {f : Function} {run : NativeBody} {taken : List Value} {v : Value}
    (native : f.body = .native run) (answered : ∀ c, run c taken = .ok (v, c)) (span : Span) :
    (invoke f span taken.length).Answers taken v :=
  fun _ _ _ _ c => ⟨_, Machine.step_native native rfl (answered c) span⟩

theorem not_failsOn_of_answers {item : Work} {taken : List Value} {v : Value} {e : Error}
    (h : item.Answers taken v) : ¬ item.FailsOn taken e := by
  intro failed
  obtain ⟨call, stepped⟩ := h ⟨.empty, 0⟩ [] [] [] (.initial "" 0)
  have outcome := failed ⟨.empty, 0⟩ [] [] [] (.initial "" 0)
  rw [stepped] at outcome
  cases outcome

theorem Answers.unique {item : Work} {taken : List Value} {v w : Value} (h : item.Answers taken v)
    (h' : item.Answers taken w) : v = w := by
  obtain ⟨call, stepped⟩ := h ⟨.empty, 0⟩ [] [] [] (.initial "" 0)
  obtain ⟨call', stepped'⟩ := h' ⟨.empty, 0⟩ [] [] [] (.initial "" 0)
  have same := congrArg (fun step => step.machine.values) (stepped.symm.trans stepped')
  exact (List.cons.inj same).1

end Work

namespace Library
variable {outside : Outside} {types : List Ty} {f : Function}

/-- A function of the standard library that only a family can provide. -/
theorem resolve_of_function? (family : Family)
    (fixed : family.name ∉ (standard .builtIn).natives.map Function.name)
    (listed : (standard outside).family? family.name = some family)
    (h : (standard outside).function? family.name types = some f) :
    family.resolve types = some f := by
  have names := map_interface_standard Prod.fst .builtIn outside
  rw [show (standard .builtIn).natives.map Function.name = _ from names] at fixed
  unfold function? at h
  split at h
  · next g found =>
    have named := List.find?_some found
    simp only [Bool.and_eq_true, beq_iff_eq] at named
    exact absurd (List.mem_map.2 ⟨g, List.mem_of_find?_eq_some found, named.1⟩) fixed
  · rwa [listed] at h

theorem body_of_has (h : (standard outside).function? "has" types = some f) :
    f.body = .native hasBody := by
  have resolved := resolve_of_function? hasKeyFamily (by decide) rfl h
  simp only [hasKeyFamily] at resolved
  split at resolved
  · split at resolved
    · cases resolved
      rfl
    · cases resolved
  · cases resolved

theorem body_of_keys (h : (standard outside).function? "keys" types = some f) :
    f.body = .native keysBody := by
  have resolved := resolve_of_function? keysFamily (by decide) rfl h
  simp only [keysFamily] at resolved
  split at resolved
  · cases resolved
    rfl
  · cases resolved

theorem body_of_size (h : (standard outside).function? "size" types = some f) :
    f.body = .native sizeBody := by
  have resolved := resolve_of_function? sizeFamily (by decide) rfl h
  simp only [sizeFamily] at resolved
  split at resolved
  · cases resolved
    rfl
  · cases resolved
    rfl
  · cases resolved

end Library

/-- What analysis may choose for an index into a map. -/
def Operator.IndexesMap (op : Operator) : Prop :=
  ∃ key value index result, Operator.index? (.map key value) index = some (op, result)

theorem Operator.IndexesMap.eq_mapGet {op : Operator} (h : op.IndexesMap) : op = .mapGet := by
  obtain ⟨key, value, index, result, chosen⟩ := h
  unfold index? at chosen
  dsimp only at chosen
  split at chosen
  · cases chosen
    rfl
  · cases chosen

namespace Value

/-- What `m[k]`, `has(m, k)`, `keys(m)` and `size(m)` show of a map. -/
structure Served (outside : Outside) (m : List (Value × Value)) : Prop where
  get : ∀ op p k v, op.IndexesMap →
    ((Work.applyBinary op p).Answers [.map m, k] v ↔ lookup? m k = some v)
  has : ∀ types f span k, (Library.standard outside).function? "has" types = some f →
    (Work.invoke f span 2).Answers [.map m, k] (.logic (hasKey m k))
  keys : ∀ types f span, (Library.standard outside).function? "keys" types = some f →
    (Work.invoke f span 1).Answers [.map m] (.list (keysOf m))
  size : ∀ types f span, (Library.standard outside).function? "size" types = some f →
    (Work.invoke f span 1).Answers [.map m] (.number (keysOf m).length)
  missing : ∀ op p types f span k, op.IndexesMap →
    (Library.standard outside).function? "has" types = some f →
    ((Work.applyBinary op p).FailsOn [.map m, k] ⟨.missingKey k.describe, p⟩ ↔
      (Work.invoke f span 2).Answers [.map m, k] (.logic false))

theorem applyBinary_mapGet (m : List (Value × Value)) (k : Value) :
    Operator.applyBinary .mapGet (.map m) k = Operator.valueUnder m k := by
  cases k <;> rfl

theorem answers_get {m : List (Value × Value)} {k v : Value} (h : lookup? m k = some v)
    (p : Position) : (Work.applyBinary .mapGet p).Answers [.map m, k] v := by
  refine Work.answers_applyBinary ?_ p
  rw [applyBinary_mapGet, Operator.valueUnder, h]

theorem failsOn_get {m : List (Value × Value)} {k : Value} (h : lookup? m k = none)
    (p : Position) :
    (Work.applyBinary .mapGet p).FailsOn [.map m, k] ⟨.missingKey k.describe, p⟩ := by
  refine Work.failsOn_applyBinary ?_ p
  rw [applyBinary_mapGet, Operator.valueUnder, h]

variable {outside : Outside}

theorem answers_has {types : List Ty} {f : Function}
    (h : (Library.standard outside).function? "has" types = some f) (span : Span)
    (m : List (Value × Value)) (k : Value) :
    (Work.invoke f span 2).Answers [.map m, k] (.logic (hasKey m k)) :=
  @Work.answers_invoke _ _ [.map m, k] _ (Library.body_of_has h) (fun _ => rfl) span

theorem served (m : List (Value × Value)) : Served outside m where
  get op p k v indexes := by
    obtain rfl := indexes.eq_mapGet
    refine ⟨fun answers => ?_, fun found => answers_get found p⟩
    cases found : lookup? m k with
    | none => exact absurd (failsOn_get found p) (Work.not_failsOn_of_answers answers)
    | some w => rw [answers.unique (answers_get found p)]
  has _ _ span k found := answers_has found span m k
  keys _ _ span found :=
    @Work.answers_invoke _ _ [.map m] _ (Library.body_of_keys found) (fun _ => rfl) span
  size _ _ span found := by
    refine @Work.answers_invoke _ _ [.map m] _ (Library.body_of_size found) (fun c => ?_) span
    simp [Library.sizeBody, keysOf]
  missing op p _ _ span k indexes found := by
    obtain rfl := indexes.eq_mapGet
    have answers := answers_has found span m k
    constructor
    · intro failed
      cases looked : lookup? m k with
      | none => simpa [hasKey, looked] using answers
      | some v => exact absurd failed (Work.not_failsOn_of_answers (answers_get looked p))
    · intro absent
      have none : hasKey m k = false := by simpa using answers.unique absent
      refine failsOn_get ?_ p
      simpa [hasKey] using none

end Value

namespace Machine

def unpaired (pairs : List (Value × Value)) : List Value :=
  pairs.flatMap fun pair => [pair.1, pair.2]

theorem pairs_unpaired (entries : List (Value × Value)) : pairs (unpaired entries) = entries := by
  induction entries with
  | nil => rfl
  | cons entry rest ih => exact congrArg (entry :: ·) ih

theorem length_unpaired (entries : List (Value × Value)) :
    (unpaired entries).length = entries.length * 2 := by
  induction entries with
  | nil => rfl
  | cons entry rest ih =>
    rw [List.length_cons, Nat.succ_mul, ← ih]
    rfl

/-- A map literal makes the map that its entries leave when they are inserted in turn. -/
theorem reaches_map {σ : Setting} {fs fs' : List Frame} {W : List Work} {V : List Value}
    {c c' : Context} {mark : Mark} {entries : List (Expr × Expr)} {values : List (Value × Value)}
    (count : entries.length = values.length)
    (evaluated : Reaches
      (σ.machine fs (operands (entryOperands entries) ++
        .makeMap entries.length mark.start :: W) V, c)
      (σ.machine fs' (.makeMap entries.length mark.start :: W)
        ((unpaired values).reverse ++ V), c')) :
    Reaches (σ.machine fs (.expr (.map mark entries) :: W) V, c)
      (σ.machine fs' W (.map (Value.entriesOf values) :: V), c') := by
  have opened : Next (σ.machine fs (.expr (.map mark entries) :: W) V, c)
      (σ.machine fs (operands (entryOperands entries) ++
        .makeMap entries.length mark.start :: W) V, c) := by
    refine ⟨none, ?_⟩
    rw [step_item rfl, perform_map]
    rfl
  have made : Next
      (σ.machine fs' (.makeMap entries.length mark.start :: W) ((unpaired values).reverse ++ V), c')
      (σ.machine fs' W (.map (Value.entriesOf values) :: V), c') := by
    refine ⟨none, ?_⟩
    rw [step_item rfl, perform_makeMap (by rw [length_unpaired, count]), pairs_unpaired]
    rfl
  exact .head opened (evaluated.tail made)

end Machine

namespace Renewed
open Value

def initial : List (Value × Value) :=
  [(.list [.number 2], .string "two"), (.logic true, .real 0.5)]

def later : List (Value × Value) := [(.list [.number 2], .string "new"), (.number 7, .unit)]

def left : List (Value × Value) := insertAll (entriesOf initial) later

end Renewed

end CursorScript
