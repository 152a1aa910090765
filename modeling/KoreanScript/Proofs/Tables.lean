import KoreanScript.Proofs.Equality
import KoreanScript.Proofs.Preservation

/-!
The tables of a session. Wherever a table is held, in what a text gives or in what a
frame binds and also deep within other values, its keys are strings, truth values and
defined numbers, and no two of them are equal. No table is ever made otherwise, so
this holds however many texts have been run and whichever of them have failed.
-/
namespace KoreanScript

mutual
/-- The tables in a value, itself included and also those within lists and other tables. -/
def Value.tables : Value → List Table
  | .list vs => Value.tablesAll vs
  | .table es => es :: Value.tablesEntries es
  | .number _ | .string _ | .boolean _ | .function _ | .empty => []
def Value.tablesAll : List Value → List Table
  | [] => []
  | v :: vs => v.tables ++ Value.tablesAll vs
def Value.tablesEntries : List (Value × Value) → List Table
  | [] => []
  | (k, v) :: es => k.tables ++ v.tables ++ Value.tablesEntries es
end

/-- A table each of whose keys can be a key and differs from every other. -/
structure Table.Keyed (es : Table) : Prop where
  hashable : ∀ e ∈ es, e.1.isKey
  apart : es.Pairwise fun e f => (e.1 == f.1) = false ∧ (f.1 == e.1) = false

theorem Entries.Lawful.keyed {es : Table} (lawful : Entries.Lawful es) : Table.Keyed es := by
  constructor
  · intro e member
    exact lawful.hashable e.1 (List.mem_map_of_mem member)
  · refine (List.pairwise_map.mp lawful.apart).imp fun differ => ⟨differ, ?_⟩
    rwa [Value.beq_comm]

namespace Value

theorem mem_tablesAll {es : Table} {vs : List Value} : es ∈ tablesAll vs ↔ ∃ v ∈ vs, es ∈ v.tables := by
  induction vs with
  | nil => simp [tablesAll]
  | cons v vs ih => simp [tablesAll, ih]
theorem mem_tablesEntries {es fs : Table} :
    es ∈ tablesEntries fs ↔ ∃ e ∈ fs, es ∈ e.1.tables ∨ es ∈ e.2.tables := by
  induction fs with
  | nil => simp [tablesEntries]
  | cons e fs ih =>
    rw [tablesEntries, List.mem_append, List.mem_append, ih]
    simp
/-- There is no table in a key. -/
theorem tables_of_isKey {v : Value} (hashable : v.isKey) : v.tables = [] := by
  cases v with
  | number _ | string _ | boolean _ => rw [tables]
  | function _ | empty | list _ | table _ => cases hashable
/-- All tables in a sound value are keyed. -/
theorem Sound.keyed {good : Closure → Prop} {v : Value} (sound : v.Sound good) : ∀ es ∈ v.tables, Table.Keyed es := by
  induction sound with
  | number _ | string _ | boolean _ | function _ | empty => simp [tables]
  | list _ ih =>
    intro es member
    rw [tables, mem_tablesAll] at member
    obtain ⟨v, element, inside⟩ := member
    exact ih v element es inside
  | table lawful _ ih =>
    intro es member
    rw [tables] at member
    rcases List.mem_cons.mp member with rfl | member
    · exact lawful.keyed
    obtain ⟨e, entry, inside | inside⟩ := mem_tablesEntries.mp member
    · rw [tables_of_isKey (lawful.hashable e.1 (List.mem_map_of_mem entry))] at inside
      cases inside
    · exact ih e entry es inside

end Value

namespace Session

/-- Whatever texts a session has run, all tables in what its frames bind are keyed, and so are
    all tables in whatever value the next text gives. -/
theorem tables_keyed {s : Session} (reached : initial.Later s) :
    (∀ (f : FrameId) (frame : Frame), s.store.frames[f]? = some frame →
      ∀ e ∈ frame.bindings, ∀ es ∈ e.2.tables, Table.Keyed es) ∧
    ∀ (depth : Nat) (source : String) (x : Execution) (v : Value), s.execute depth source = some x →
      x.result = .ok v → ∀ es ∈ v.tables, Table.Keyed es := by
  obtain ⟨sound, inside⟩ := reached.sound
  constructor
  · intro f frame here e member
    exact (sound.bindings here e member).keyed
  · intro depth source x v executed gives
    obtain ⟨_, _, value⟩ := execute_sound sound inside executed
    exact (value v gives).keyed

set_option maxRecDepth 100000 in
/-- A table within a list within a table, to which a second text adds before it fails. -/
theorem tables_keyed_nested :
    let inner : Table := [(.string "a", .boolean true)]
    let outer : Table := [(.boolean true, .list [.table inner])]
    let grown : Table := outer ++ [(.string "b", .table outer)]
    let s : Session := ⟨⟨#[⟨[("t", .table grown)], none⟩], 0, #[]⟩⟩
    initial.Later s ∧ Table.Keyed grown ∧ Table.Keyed inner := by
  intro inner outer grown s
  have first : initial.execute 1 "t = [!참: [[!'a': 참]]]" =
      some ⟨.ok (.table outer), [], ⟨⟨#[⟨[("t", .table outer)], none⟩], 0, #[]⟩⟩⟩ := by cbv
  have second : execute 1 ⟨⟨#[⟨[("t", .table outer)], none⟩], 0, #[]⟩⟩ "t(t = 넣기(t, 'b', t))" =
      some ⟨.error (.eval ⟨.callTarget .table, ⟨⟨0, 0⟩, ⟨0, 0⟩⟩⟩), [], s⟩ := by cbv
  have reached : initial.Later s := .execute 1 _ (.execute 1 _ .now first) second
  have keyed := (tables_keyed reached).1 globals ⟨[("t", .table grown)], none⟩ rfl _ (List.mem_singleton_self _)
  refine ⟨reached, keyed grown ?_, keyed inner ?_⟩
  · simp [Value.tables]
  · simp [Value.tables, Value.tablesEntries, Value.tablesAll, grown, outer]

end Session
end KoreanScript
