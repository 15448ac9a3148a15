/-
# What counts as new hardware

An expansion lists the disks that are new and marks the center with them. The list is
made by a filter that keeps a disk if the old nodes have it, so it has the other disks
of the file.

A disk is marked just when it is listed. The mark of a node comes from the same loop: it
stays old once a listed disk before the matching one was another. So a node becomes new
if the list is empty, or if each of its disks is the first of the list.
-/

import Bob.Generator.Expand
import Mathlib.Data.Multiset.MapFold

namespace Bob.Generator

open Bob.Configs Bob.Math

/-! ## The list of new disks -/

section Listing

variable {oldNodes newNodes : List ClusterNode} {pair : NodeName × DiskName}

/-- A node with this name and address has this disk. -/
def HasDisk (nodes : List ClusterNode) (node : ClusterNode) (disk : DiskPath) : Prop :=
  ∃ other ∈ nodes, other.name = node.name ∧ other.address = node.address ∧ disk ∈ other.disks

/-- Nodes have distinct names, and so have the disks of each. -/
structure DistinctNames (nodes : List ClusterNode) : Prop where
  names : (nodes.map (·.name)).Nodup
  disks : ∀ node ∈ nodes, (node.disks.map (·.name)).Nodup

/-- A list has the disks of the new nodes that the old ones do not have, each once. -/
structure ListsNewDisks (oldNodes newNodes : List ClusterNode)
    (listed : List (NodeName × DiskName)) : Prop where
  mem_iff : ∀ pair, pair ∈ listed ↔ ∃ node ∈ newNodes, ∃ disk ∈ node.disks,
    pair = (⟨node.name⟩, disk.name) ∧ ¬ HasDisk oldNodes node disk
  once : listed.Nodup

private theorem any_eq_true_iff_hasDisk {node : ClusterNode} {disk : DiskPath} :
    (oldNodes.any fun oldNode => oldNode.disks.any fun oldDisk =>
      node.name = oldNode.name && node.address = oldNode.address && disk = oldDisk) = true ↔
      HasDisk oldNodes node disk := by
  simp only [List.any_eq_true, Bool.and_eq_true, decide_eq_true_eq, HasDisk]
  constructor
  · rintro ⟨other, hother, same, hsame, ⟨hname, haddress⟩, rfl⟩
    exact ⟨other, hother, hname.symm, haddress.symm, hsame⟩
  · rintro ⟨other, hother, hname, haddress, hdisk⟩
    exact ⟨other, hother, disk, hdisk, ⟨hname.symm, haddress.symm⟩, rfl⟩

/-- The disks that are listed are those the old nodes have. -/
theorem mem_getNewDisks_iff :
    pair ∈ getNewDisks oldNodes newNodes ↔ ∃ node ∈ newNodes, ∃ disk ∈ node.disks,
      pair = (⟨node.name⟩, disk.name) ∧ HasDisk oldNodes node disk := by
  simp only [getNewDisks, List.mem_flatMap, List.mem_map, List.mem_filter,
    any_eq_true_iff_hasDisk, and_assoc]
  constructor
  · rintro ⟨node, hnode, disk, hdisk, has, rfl⟩
    exact ⟨node, hnode, disk, hdisk, rfl, has⟩
  · rintro ⟨node, hnode, disk, hdisk, rfl, has⟩
    exact ⟨node, hnode, disk, hdisk, has, rfl⟩

theorem nodup_getNewDisks (distinct : DistinctNames newNodes) :
    (getNewDisks oldNodes newNodes).Nodup := by
  refine List.nodup_flatMap.mpr ⟨fun node hnode => ?_, ?_⟩
  · refine List.Nodup.of_map Prod.snd ?_
    rw [List.map_map]
    exact (distinct.disks node hnode).sublist (List.filter_sublist.map _)
  · -- pairs of different nodes differ in the name of the node
    refine (List.pairwise_map.mp distinct.names).imp fun {a b} different => ?_
    intro pair ofA ofB
    obtain ⟨diskA, hdiskA, rfl⟩ := List.mem_map.mp ofA
    obtain ⟨diskB, hdiskB, same⟩ := List.mem_map.mp ofB
    exact different (congrArg (fun pair => pair.1.str) same).symm

/-- A disk of the new nodes is determined by its pair. -/
theorem DistinctNames.inj (distinct : DistinctNames newNodes) {node other : ClusterNode}
    {disk otherDisk : DiskPath} (hnode : node ∈ newNodes) (hother : other ∈ newNodes)
    (hdisk : disk ∈ node.disks) (hotherDisk : otherDisk ∈ other.disks)
    (same : ((⟨node.name⟩, disk.name) : NodeName × DiskName) = (⟨other.name⟩, otherDisk.name)) :
    node = other ∧ disk = otherDisk := by
  obtain ⟨sameNode, sameDisk⟩ := Prod.mk.inj same
  obtain rfl := List.inj_on_of_nodup_map distinct.names hnode hother (NodeName.mk.inj sameNode)
  exact ⟨rfl, List.inj_on_of_nodup_map (distinct.disks node hnode) hdisk hotherDisk sameDisk⟩

/-- The list has the new disks just when the new nodes have no disks at all. -/
theorem listsNewDisks_getNewDisks_iff (distinct : DistinctNames newNodes) :
    ListsNewDisks oldNodes newNodes (getNewDisks oldNodes newNodes) ↔
      ∀ node ∈ newNodes, node.disks = [] := by
  constructor
  · rintro ⟨listed, -⟩ node hnode
    refine List.eq_nil_iff_forall_not_mem.mpr fun disk hdisk => ?_
    -- the disk would be listed both if the old nodes have it and if they do not
    have exchange := (@mem_getNewDisks_iff oldNodes _ (⟨node.name⟩, disk.name)).symm.trans
      (listed _)
    by_cases has : HasDisk oldNodes node disk
    · obtain ⟨other, hother, otherDisk, hotherDisk, same, lacks⟩ :=
        exchange.mp ⟨node, hnode, disk, hdisk, rfl, has⟩
      obtain ⟨rfl, rfl⟩ := distinct.inj hnode hother hdisk hotherDisk same
      exact lacks has
    · obtain ⟨other, hother, otherDisk, hotherDisk, same, had⟩ :=
        exchange.mpr ⟨node, hnode, disk, hdisk, rfl, has⟩
      obtain ⟨rfl, rfl⟩ := distinct.inj hnode hother hdisk hotherDisk same
      exact has had
  · intro empty
    have none (P : ClusterNode → DiskPath → Prop) :
        ¬ ∃ node ∈ newNodes, ∃ disk ∈ node.disks, P node disk := by
      rintro ⟨node, hnode, disk, hdisk, -⟩
      simp [empty node hnode] at hdisk
    refine ⟨fun pair => ?_, nodup_getNewDisks distinct⟩
    rw [mem_getNewDisks_iff]
    exact iff_of_false (none _) (none _)

/-- New nodes without disks are listed right. -/
theorem listsNewDisks_of_no_disks :
    DistinctNames [⟨"n1", "a1", []⟩] ∧
      ListsNewDisks [⟨"n1", "a1", [⟨⟨"d1"⟩, "p1"⟩]⟩] [⟨"n1", "a1", []⟩]
        (getNewDisks [⟨"n1", "a1", [⟨⟨"d1"⟩, "p1"⟩]⟩] [⟨"n1", "a1", []⟩]) := by
  have distinct : DistinctNames [⟨"n1", "a1", []⟩] := ⟨by decide, by decide⟩
  exact ⟨distinct, (listsNewDisks_getNewDisks_iff distinct).mpr (by decide)⟩

/-- A disk is added to the one of a node. The list has the old disk and not the added one. -/
theorem not_listsNewDisks_of_added_disk :
    ∃ oldNodes newNodes : List ClusterNode, DistinctNames oldNodes ∧ DistinctNames newNodes ∧
      getNewDisks oldNodes newNodes = [(⟨"n1"⟩, ⟨"d1"⟩)] ∧
      ¬ HasDisk oldNodes ⟨"n1", "a1", [⟨⟨"d1"⟩, "p1"⟩, ⟨⟨"d2"⟩, "p2"⟩]⟩ ⟨⟨"d2"⟩, "p2"⟩ ∧
      ¬ ListsNewDisks oldNodes newNodes (getNewDisks oldNodes newNodes) := by
  refine ⟨[⟨"n1", "a1", [⟨⟨"d1"⟩, "p1"⟩]⟩],
    [⟨"n1", "a1", [⟨⟨"d1"⟩, "p1"⟩, ⟨⟨"d2"⟩, "p2"⟩]⟩], ?_, ?_, by decide, ?_, ?_⟩
  · exact ⟨by decide, by decide⟩
  · exact ⟨by decide, by decide⟩
  · simp [HasDisk]
  · intro lists
    have missing := (lists.mem_iff (⟨"n1"⟩, ⟨"d2"⟩)).mpr
      ⟨_, List.mem_singleton_self _, ⟨⟨"d2"⟩, "p2"⟩, by decide, rfl, by simp [HasDisk]⟩
    exact absurd missing (by decide)

end Listing

/-! ## Old before new -/

/-- No old item comes after a new one. -/
def OldFirst {α : Type*} (isOld : α → Bool) (items : List α) : Prop :=
  items.Pairwise fun a b => isOld b = true → isOld a = true

theorem oldFirst_sortOldFirst {α : Type*} (order : AnyOrder α) (isOld : α → Bool)
    (items : List α) : OldFirst isOld (sortOldFirst order isOld items) := by
  have isFirst {a : α} (member : a ∈ order.arrange (items.filter isOld)) : isOld a = true :=
    (List.mem_filter.mp (AnyOrder.mem_arrange.mp member)).2
  have isLast {a : α} (member : a ∈ order.arrange (items.filter fun item => !isOld item)) :
      isOld a = false := by
    simpa using (List.mem_filter.mp (AnyOrder.mem_arrange.mp member)).2
  refine List.pairwise_append.mpr ⟨?_, ?_, ?_⟩
  · exact List.pairwise_of_forall_mem_list fun a ha b _ _ => isFirst ha
  · refine List.pairwise_of_forall_mem_list fun a _ b hb old => ?_
    rw [isLast hb] at old
    cases old
  · exact fun a ha b _ _ => isFirst ha

/-! ## Marks of disks and nodes -/

section Marks

variable {orders : Orders} {disks : List (NodeName × DiskName)} {racks : List String}

theorem isOld_markNew_disk_eq_false_iff (disk : Disk) (node : NodeName) :
    (disk.markNew node disks).1.isOld = false ↔
      disk.isOld = false ∨ (node, disk.name) ∈ disks := by
  induction disks with
  | nil => simp [Disk.markNew]
  | cons new rest ih =>
    rw [Disk.markNew, List.mem_cons, Prod.mk.injEq]
    split_ifs with same
    · exact iff_of_true rfl (.inr (.inl same))
    · rw [ih]
      simp [same]

/-- The first of the list decides whether the loop saw another disk. -/
theorem snd_markNew_eq_true_iff (disk : Disk) (node : NodeName) :
    (disk.markNew node disks).2 = true ↔
      disks ≠ [] ∧ disks.head? ≠ some (node, disk.name) := by
  cases disks with
  | nil => simp [Disk.markNew]
  | cons new rest =>
    rw [Disk.markNew]
    split_ifs with same
    · simp [same]
    · refine iff_of_true rfl ⟨List.cons_ne_nil _ _, fun head => same ?_⟩
      rw [List.head?_cons, Option.some.injEq] at head
      rw [head]
      exact ⟨rfl, rfl⟩

theorem isOld_markNew_node_eq_false_iff (node : Node) :
    (node.markNew orders disks).isOld = false ↔ node.isOld = false ∨ disks = [] ∨
      ∀ disk ∈ node.disks, disks.head? = some (node.name, disk.name) := by
  have seen : (node.disks.map fun disk => disk.markNew node.name disks).any (·.2) = true ↔
      disks ≠ [] ∧ ∃ disk ∈ node.disks, disks.head? ≠ some (node.name, disk.name) := by
    simp only [List.any_map, List.any_eq_true, Function.comp_apply, snd_markNew_eq_true_iff]
    tauto
  rw [Node.markNew]
  by_cases other : (node.disks.map fun disk => disk.markNew node.name disks).any (·.2) = true
  · obtain ⟨nonempty, disk, hdisk, differs⟩ := seen.mp other
    simp only [other, if_true]
    refine ⟨.inl, ?_⟩
    rintro (old | empty | first)
    · exact old
    · exact absurd empty nonempty
    · exact absurd (first disk hdisk) differs
  · simp only [other, Bool.false_eq_true, if_false, true_iff]
    by_contra none
    push Not at none
    exact other (seen.mpr ⟨none.2.1, none.2.2⟩)

/-! ## The marked center -/

/-- The names of the node and of its disks. -/
def Node.items (node : Node) : NodeName × Multiset DiskName :=
  (node.name, node.disks.map (·.name))

/-- The name of the rack and the items of its nodes. -/
def Rack.items (rack : Rack) : String × Multiset (NodeName × Multiset DiskName) :=
  (rack.name, rack.nodes.map Node.items)

/-- Everything in the center, without order and marks. -/
def Center.items (center : Center) :
    Multiset (String × Multiset (NodeName × Multiset DiskName)) :=
  center.racks.map Rack.items

/-- A disk is new if it is listed, and a node with disks if all of them are. -/
structure Node.MarkedBy (disks : List (NodeName × DiskName)) (node : Node) : Prop where
  marks : ∀ disk ∈ node.disks, disk.isOld = false ↔ (node.name, disk.name) ∈ disks
  mark : node.disks ≠ [] →
    (node.isOld = false ↔ ∀ disk ∈ node.disks, (node.name, disk.name) ∈ disks)
  oldFirst : OldFirst Disk.isOld node.disks

structure Rack.MarkedBy (disks : List (NodeName × DiskName)) (racks : List String)
    (rack : Rack) : Prop where
  nodes : ∀ node ∈ rack.nodes, node.MarkedBy disks
  mark : rack.isOld = false ↔ rack.name ∈ racks
  oldFirst : OldFirst Node.isOld rack.nodes

/-- A center has the right marks and orders, and the items of the one before. -/
structure Center.MarkedBy (disks : List (NodeName × DiskName)) (racks : List String)
    (before after : Center) : Prop where
  racks : ∀ rack ∈ after.racks, rack.MarkedBy disks racks
  oldFirst : OldFirst Rack.isOld after.racks
  items : after.items = before.items

structure Node.AllOld (node : Node) : Prop where
  mark : node.isOld = true
  marks : ∀ disk ∈ node.disks, disk.isOld = true

structure Center.AllOld (center : Center) : Prop where
  racks : ∀ rack ∈ center.racks, rack.isOld = true
  nodes : ∀ rack ∈ center.racks, ∀ node ∈ rack.nodes, node.AllOld

/-- The list is not empty, and if it has all disks of the node, each is its first. -/
def Node.FirstOnly (disks : List (NodeName × DiskName)) (node : Node) : Prop :=
  disks ≠ [] ∧ ((∀ disk ∈ node.disks, (node.name, disk.name) ∈ disks) →
    ∀ disk ∈ node.disks, disks.head? = some (node.name, disk.name))

theorem disks_markNew_perm (node : Node) :
    (node.markNew orders disks).disks.Perm
      (node.disks.map fun disk => (disk.markNew node.name disks).1) := by
  refine (sortOldFirst_perm _ _ _).trans (.of_eq ?_)
  rw [List.map_map]
  rfl

theorem forall_mem_disks_markNew_iff {node : Node} {P : DiskName → Prop} :
    (∀ disk ∈ (node.markNew orders disks).disks, P disk.name) ↔
      ∀ disk ∈ node.disks, P disk.name := by
  simp only [(disks_markNew_perm node).mem_iff, List.forall_mem_map, name_markNew_disk]

theorem disks_markNew_eq_nil_iff {node : Node} :
    (node.markNew orders disks).disks = [] ↔ node.disks = [] := by
  rw [← List.length_eq_zero_iff, (disks_markNew_perm node).length_eq, List.length_map,
    List.length_eq_zero_iff]

/-- Only the mark of the node itself can be wrong. -/
theorem Node.AllOld.markedBy_iff {node : Node} (old : node.AllOld) :
    (node.markNew orders disks).MarkedBy disks ↔ (node.disks ≠ [] → node.FirstOnly disks) := by
  have isNew : (node.markNew orders disks).isOld = false ↔
      disks = [] ∨ ∀ disk ∈ node.disks, disks.head? = some (node.name, disk.name) := by
    rw [isOld_markNew_node_eq_false_iff, old.mark]
    simp
  have listed : (∀ disk ∈ (node.markNew orders disks).disks, (node.name, disk.name) ∈ disks) ↔
      ∀ disk ∈ node.disks, (node.name, disk.name) ∈ disks :=
    forall_mem_disks_markNew_iff (P := fun disk => (node.name, disk) ∈ disks)
  constructor
  · intro marked has
    have right := marked.mark (mt disks_markNew_eq_nil_iff.mp has)
    have same := isNew.symm.trans (right.trans listed)
    obtain ⟨disk, hdisk⟩ := List.exists_mem_of_ne_nil _ has
    have nonempty : disks ≠ [] := fun empty => by
      simpa [empty] using same.mp (.inl empty) disk hdisk
    exact ⟨nonempty, fun all => (same.mpr all).resolve_left nonempty⟩
  · intro first
    refine ⟨fun disk hdisk => ?_, fun has => ?_, oldFirst_sortOldFirst _ _ _⟩
    · obtain ⟨before, hbefore, rfl⟩ := List.mem_map.mp ((disks_markNew_perm node).mem_iff.mp hdisk)
      rw [isOld_markNew_disk_eq_false_iff, old.marks before hbefore, name_markNew_disk]
      simp [Node.markNew]
    · obtain ⟨nonempty, only⟩ := first (mt disks_markNew_eq_nil_iff.mpr has)
      refine isNew.trans (Iff.trans ⟨?_, fun all => .inr (only all)⟩ listed.symm)
      rintro (empty | heads) disk hdisk
      · exact absurd empty nonempty
      · exact List.mem_of_mem_head? (heads disk hdisk)

theorem items_markNew_node (node : Node) : (node.markNew orders disks).items = node.items := by
  refine Prod.ext rfl (Multiset.coe_eq_coe.mpr ?_)
  refine ((disks_markNew_perm node).map _).trans (.of_eq ?_)
  rw [List.map_map]
  exact List.map_congr_left fun disk _ => name_markNew_disk disk node.name

theorem items_markNew_rack (rack : Rack) : (rack.markNew orders disks).items = rack.items := by
  refine Prod.ext rfl (Multiset.coe_eq_coe.mpr ?_)
  refine ((sortOldFirst_perm _ _ _).map _).trans (.of_eq ?_)
  rw [List.map_map]
  exact List.map_congr_left fun node _ => items_markNew_node node

/-- Marking loses and adds nothing. -/
theorem items_markNew_center (center : Center) :
    (center.markNew orders disks racks).items = center.items := by
  refine Multiset.coe_eq_coe.mpr ?_
  refine ((racks_markNew_perm center).map _).trans (.of_eq ?_)
  rw [List.map_map]
  exact List.map_congr_left fun rack _ => items_markNew_rack rack

/-- All marks and orders are right just when no node with disks is mistaken. -/
theorem center_markedBy_markNew_iff {center : Center} (old : center.AllOld) :
    center.MarkedBy disks racks (center.markNew orders disks racks) ↔
      ∀ rack ∈ center.racks, ∀ node ∈ rack.nodes, node.disks ≠ [] → node.FirstOnly disks := by
  constructor
  · intro marked rack hrack node hnode
    have after := marked.racks _ ((racks_markNew_perm center).mem_iff.mpr
      (List.mem_map_of_mem hrack))
    have listed : node.markNew orders disks ∈ (rack.markNew orders disks).nodes :=
      (sortOldFirst_perm _ _ _).mem_iff.mpr (List.mem_map_of_mem hnode)
    exact (old.nodes rack hrack node hnode).markedBy_iff.mp (after.nodes _ listed)
  · intro first
    refine ⟨fun marked hmarked => ?_, oldFirst_sortOldFirst _ _ _, items_markNew_center center⟩
    obtain ⟨rack, hrack, rfl⟩ := List.mem_map.mp ((racks_markNew_perm center).mem_iff.mp hmarked)
    refine ⟨fun node hnode => ?_, ?_, oldFirst_sortOldFirst _ _ _⟩
    · obtain ⟨before, hbefore, rfl⟩ := mem_nodes_markNew hnode
      exact (old.nodes rack hrack before hbefore).markedBy_iff.mpr
        (first rack hrack before hbefore)
    · rw [old.racks rack hrack]
      simp [Rack.markNew]

end Marks

/-! ## Expanding -/

theorem Node.allOld_ofConfig (node : ClusterNode) : (Node.ofConfig node).AllOld := by
  refine ⟨rfl, fun disk hdisk => ?_⟩
  obtain ⟨listed, -, rfl⟩ := List.mem_map.mp hdisk
  rfl

/-- Everything in a center is old before it is marked. -/
theorem Center.allOld_of_fromClusterConfig {order : AnyOrder Rack} {config : Cluster}
    {useRacks : Bool} {center : Center}
    (built : fromClusterConfig order config useRacks = .ok center) : center.AllOld := by
  refine ⟨fun rack hrack => ?_, fun rack hrack node hnode => ?_⟩
  · cases used : !useRacks || config.racks.isEmpty with
    | true =>
      rw [fromClusterConfig_eq_of_no_racks used] at built
      cases built
      rw [List.mem_singleton.mp hrack]
    | false =>
      have member := (racks_perm_of_fromClusterConfig used built).mem_iff.mp hrack
      obtain ⟨other, -, rfl⟩ := List.mem_map.mp member
      rfl
  · obtain ⟨listed, -, rfl⟩ := mem_config_of_fromClusterConfig built hrack hnode
    exact Node.allOld_ofConfig listed

/-! ## Examples -/

instance (disks : List (NodeName × DiskName)) (node : Node) : Decidable (node.FirstOnly disks) :=
  inferInstanceAs (Decidable (_ ∧ _))

/-- The center of two nodes, of which the second has two disks. -/
def centerOfTwo : Center := ⟨[⟨"unknown", twoNodes.map Node.ofConfig, true⟩], .new⟩

theorem allOld_centerOfTwo : centerOfTwo.AllOld :=
  Center.allOld_of_fromClusterConfig (rfl : Center.fromClusterConfig .launched
    (hardwareOf twoNodes) false = .ok centerOfTwo)

/-- The only disk of the first node is new. -/
theorem markedBy_of_one_new_disk :
    centerOfTwo.AllOld ∧ centerOfTwo.MarkedBy [(⟨"n1"⟩, ⟨"d1"⟩)] ["unknown"]
      (centerOfTwo.markNew .launched [(⟨"n1"⟩, ⟨"d1"⟩)] ["unknown"]) :=
  ⟨allOld_centerOfTwo, (center_markedBy_markNew_iff allOld_centerOfTwo).mpr (by decide)⟩

/-- Both disks of the second node are new, and it is still marked as old. With no new disks
at all, both nodes are marked as new. -/
theorem not_markedBy_of_two_new_disks :
    centerOfTwo.AllOld ∧
      (centerOfTwo.markNew .launched [(⟨"n2"⟩, ⟨"d1"⟩), (⟨"n2"⟩, ⟨"d2"⟩)] []).racks.flatMap
          (·.nodes) =
        [⟨⟨"n1"⟩, [⟨⟨"d1"⟩, true⟩], true⟩, ⟨⟨"n2"⟩, [⟨⟨"d1"⟩, false⟩, ⟨⟨"d2"⟩, false⟩], true⟩] ∧
      ¬ centerOfTwo.MarkedBy [(⟨"n2"⟩, ⟨"d1"⟩), (⟨"n2"⟩, ⟨"d2"⟩)] []
        (centerOfTwo.markNew .launched [(⟨"n2"⟩, ⟨"d1"⟩), (⟨"n2"⟩, ⟨"d2"⟩)] []) ∧
      (centerOfTwo.markNew .launched [] []).racks.flatMap (·.nodes) =
        [⟨⟨"n1"⟩, [⟨⟨"d1"⟩, true⟩], false⟩, ⟨⟨"n2"⟩, [⟨⟨"d1"⟩, true⟩, ⟨⟨"d2"⟩, true⟩], false⟩] ∧
      ¬ centerOfTwo.MarkedBy [] [] (centerOfTwo.markNew .launched [] []) := by
  refine ⟨allOld_centerOfTwo, by decide, fun marked => ?_, by decide, fun marked => ?_⟩
  · have second := ((marked.racks _ (List.mem_singleton_self _)).nodes
      ⟨⟨"n2"⟩, [⟨⟨"d1"⟩, false⟩, ⟨⟨"d2"⟩, false⟩], true⟩ (by decide)).mark (by decide)
    exact absurd (second.mpr (by decide)) (by decide)
  · have first := ((marked.racks _ (List.mem_singleton_self _)).nodes
      ⟨⟨"n1"⟩, [⟨⟨"d1"⟩, true⟩], false⟩ (by decide)).mark (by decide)
    exact absurd (first.mp rfl) (by decide)

end Bob.Generator
