import ZyncBase.Migration.Steps

/-! Runs of whole plans: the changes of each table act on that table alone, one after the other. -/
namespace ZyncBase

open Catalog List

variable {d : Dialect SqlValue} {db db' : Db SqlValue} {t : Table} {ts : List Table} {r : Relation SqlValue}

variable {c : Change} {cs : List Change}

def runChanges (d : Dialect SqlValue) (cs : List Change) (db : Db SqlValue) : Option (Db SqlValue) :=
  cs.foldlM (fun db c => c.run d db) db

lemma runChanges_cons_eq_some :
    runChanges d (c :: cs) db = some db' ↔ ∃ m, c.run d db = some m ∧ runChanges d cs m = some db' := by
  rw [runChanges, foldlM_cons, Option.bind_eq_bind, Option.bind_eq_some_iff]
  rfl

lemma runChanges_append_eq_some {cs' : List Change} : runChanges d (cs ++ cs') db = some db' ↔
    ∃ m, runChanges d cs db = some m ∧ runChanges d cs' m = some db' := by
  rw [runChanges, foldlM_append, Option.bind_eq_bind, Option.bind_eq_some_iff]
  rfl

/-- What the changes make of a table. -/
def effects (d : Dialect SqlValue) (cs : List Change) (r : Relation SqlValue) : Relation SqlValue :=
  cs.foldl (fun r c => c.effect d r) r

def Allows (d : Dialect SqlValue) : List Change → Relation SqlValue → Prop
  | [], _ => True
  | c :: cs, r => c.Allowed d r ∧ Allows d cs (c.effect d r)

lemma allows_append {cs' : List Change} :
    Allows d (cs ++ cs') r ↔ Allows d cs r ∧ Allows d cs' (effects d cs r) := by
  induction cs generalizing r with
  | nil => simp [Allows, effects]
  | cons c cs ih =>
    rw [cons_append, Allows, Allows, ih, and_assoc]
    rfl

lemma effects_append (cs cs' : List Change) (r : Relation SqlValue) :
    effects d (cs ++ cs') r = effects d cs' (effects d cs r) := foldl_append

section Effect

lemma id_mem_effect (h : "id" ∈ r.columnNames) : "id" ∈ (c.effect d r).columnNames := by
  have hbuilt : ∀ t : Table, "id" ∈ (t.rebuilt d r).columnNames := fun t =>
    Table.mem_columnNames.mpr (.inl (by decide))
  obtain ⟨kind, t, field⟩ := c
  cases kind with
  | createTable => exact h
  | addColumn =>
    cases field with
    | none => exact h
    | some f =>
      have hsub : r.columnNames ⊆ (Table.extended d f r).columnNames := by
        rw [Relation.columnNames, Relation.columnNames, Table.extended, map_append]
        exact subset_append_left _ _
      exact hsub h
  | changeIndexes => exact h
  | changeType => exact hbuilt t
  | removeColumn => exact hbuilt t
  | changeForeignKeys => exact hbuilt t

end Effect

section OneTable

lemma sets_of_runChanges (hcs : ∀ c ∈ cs, c.table = t) (hr : db.get (t.key d) = some r)
    (hid : "id" ∈ r.columnNames) (h : runChanges d cs db = some db') :
    Allows d cs r ∧ db.Sets db' (t.key d) (effects d cs r) := by
  induction cs generalizing db r with
  | nil =>
    cases h
    exact ⟨trivial, Db.Sets.refl hr⟩
  | cons c cs ih =>
    rw [forall_mem_cons] at hcs
    obtain ⟨rfl, hcs⟩ := hcs
    obtain ⟨m, hm, hrest⟩ := runChanges_cons_eq_some.mp h
    obtain ⟨hallowed, hsets⟩ := Change.sets_of_run hr hid hm
    obtain ⟨hallows, hsets'⟩ := ih hcs hsets.get_self (id_mem_effect hid) hrest
    exact ⟨⟨hallowed, hallows⟩, hsets.trans hsets'⟩

end OneTable

section Tables

lemma forall₂_imp_mem {α β : Type*} {R S : α → β → Prop} {as : List α} {bs : List β}
    (h : List.Forall₂ R as bs) (hi : ∀ a ∈ as, ∀ b, R a b → S a b) : List.Forall₂ S as bs :=
  ((forall₂_and_left as bs).mpr ⟨fun _ ha => ha, h⟩).imp fun a b hab => hi a hab.1 b hab.2

lemma exists_of_forall₂ {α β : Type*} {R S : α → β → Prop} {as : List α} {bs : List β}
    (h : List.Forall₂ R as bs) (h' : List.Forall₂ S as bs) : ∀ a ∈ as, ∃ b ∈ bs, R a b ∧ S a b := by
  induction h with
  | nil => exact fun a ha => absurd ha not_mem_nil
  | cons hab _ ih =>
    cases h' with
    | cons hab' h' =>
      rw [forall_mem_cons]
      refine ⟨⟨_, mem_cons_self, hab, hab'⟩, fun a ha => ?_⟩
      obtain ⟨b, hb, hboth⟩ := ih h' a ha
      exact ⟨b, mem_cons_of_mem _ hb, hboth⟩

/-- The changes are those of this table: its creation when it is missing. -/
structure ChangesOf (d : Dialect SqlValue) (db : Db SqlValue) (t : Table) (cs : List Change) : Prop where
  missing : db.get (t.key d) = none → cs = [{ kind := .createTable, table := t, field := none }]
  table : ∀ c ∈ cs, c.table = t

/-- What a plan makes of a table: it is created, or has had its changes. -/
def TableResult (d : Dialect SqlValue) (db db' : Db SqlValue) (t : Table) (cs : List Change) : Prop :=
  match db.get (t.key d) with
  | none => db'.get (t.key d) = some (t.built [])
  | some r => Allows d cs r ∧ db'.get (t.key d) = some (effects d cs r)

variable {css : List (List Change)}

lemma run_create : Change.run d { kind := .createTable, table := t, field := none } db =
      runStatements (t.generateDDL d) db := rfl

lemma sets_of_changesOf (hcs : ChangesOf d db t cs)
    (hid : ∀ r, db.get (t.key d) = some r → "id" ∈ r.columnNames)
    (h : runChanges d cs db = some db') :
    TableResult d db db' t cs ∧ ∀ k, t.key d ≠ k → db'.get k = db.get k := by
  rw [TableResult]
  cases hr : db.get (t.key d) with
  | none =>
    rw [hcs.missing hr] at h
    obtain ⟨m, hm, hrest⟩ := runChanges_cons_eq_some.mp h
    cases hrest
    rw [run_create] at hm
    have hsets := (Table.sets_of_generateDDL hm).1
    exact ⟨hsets.get_self, fun k hk => hsets.get_of_ne hk⟩
  | some r =>
    obtain ⟨hallows, hsets⟩ := sets_of_runChanges hcs.table hr (hid r hr) h
    exact ⟨⟨hallows, hsets.get_self⟩, fun k hk => hsets.get_of_ne hk⟩

lemma results_of_runChanges (hkeys : (ts.map (Table.key d)).Nodup) (hcs : List.Forall₂ (ChangesOf d db) ts css)
    (hid : ∀ t ∈ ts, ∀ r, db.get (t.key d) = some r → "id" ∈ r.columnNames)
    (h : runChanges d css.flatten db = some db') :
    List.Forall₂ (TableResult d db db') ts css ∧ ∀ k ∉ ts.map (Table.key d), db'.get k = db.get k := by
  induction ts generalizing db css with
  | nil =>
    cases hcs
    cases h
    exact ⟨.nil, fun _ _ => rfl⟩
  | cons t ts ih =>
    cases hcs with
    | @cons _ cs _ css hhead htail =>
      rw [map_cons, nodup_cons] at hkeys
      rw [forall_mem_cons] at hid
      obtain ⟨m, hm, hrest⟩ := runChanges_append_eq_some.mp h
      obtain ⟨hresult, hframe⟩ := sets_of_changesOf hhead hid.1 hm
      have hsame : ∀ u ∈ ts, m.get (u.key d) = db.get (u.key d) := fun u hu =>
        hframe _ fun he => hkeys.1 (he ▸ mem_map_of_mem hu)
      have htail' : List.Forall₂ (ChangesOf d m) ts css := by
        refine forall₂_imp_mem htail fun u hu us h => ?_
        exact ⟨fun hnone => h.missing ((hsame u hu).symm.trans hnone), h.table⟩
      obtain ⟨hresults, hothers⟩ := ih hkeys.2 htail'
        (fun u hu r hr => hid.2 u hu r ((hsame u hu).symm.trans hr)) hrest
      refine ⟨.cons ?_ ?_, fun k hk => ?_⟩
      · rw [TableResult, hothers _ hkeys.1]
        exact hresult
      · refine forall₂_imp_mem hresults fun u hu us h => ?_
        rw [TableResult, hsame u hu] at h
        exact h
      · rw [map_cons, mem_cons, not_or] at hk
        rw [hothers k hk.2, hframe k (Ne.symm hk.1)]

end Tables
end ZyncBase
