import ObjectSync.Entity.Property

/-!
# The unit part

What creatures and players have in common. Flags are fields of one bit, and those without a meaning
are padding.
-/

namespace ObjectSync.PartTable

def unit : PartTable where
  name := "unit"
  fields := [
    .scalar "charm" .u64,
    .scalar "summon" .u64,
    .scalar "critter" .u64,
    .scalar "charmed_by" .u64,
    .scalar "summoned_by" .u64,
    .scalar "created_by" .u64,
    .scalar "target" .u64,
    .scalar "channel_object" .u64,
    .scalar "channel_spell" .u32,
    .scalar "race" .u8,
    .scalar "class" .u8,
    .scalar "gender" .u8,
    .scalar "power_type" .u8,
    .scalar "health" .u32,
    .scalar "mana" .u32,
    .scalar "rage" .u32,
    .scalar "focus" .u32,
    .scalar "energy" .u32,
    .scalar "happiness" .u32,
    .scalar "runes" .u32,
    .scalar "runic_power" .u32,
    .scalar "max_health" .u32,
    .scalar "max_mana" .u32,
    .scalar "max_rage" .u32,
    .scalar "max_focus" .u32,
    .scalar "max_energy" .u32,
    .scalar "max_happiness" .u32,
    .scalar "max_runes" .u32,
    .scalar "max_runic_power" .u32,
    .array "power_regen_flat_modifier" .f32 7,
    .array "power_regen_interrupted_flat_modifier" .f32 7,
    .scalar "level" .u32,
    .scalar "faction_template" .u32,
    .array "virtual_item_slot_ids" .u32 3,
    .scalar "server_controlled" .bool,
    .scalar "non_attackable" .bool,
    .scalar "remove_client_control" .bool,
    .scalar "player_controlled" .bool,
    .scalar "rename" .bool,
    .scalar "pet_abandon" .bool,
    .scalar "unit_flag_unk6" .bool,
    .scalar "unit_flag_unk7" .bool,
    .scalar "ooc_not_attackable" .bool,
    .scalar "passive" .bool,
    .scalar "unit_flag_unk10" .bool,
    .scalar "unit_flag_unk11" .bool,
    .scalar "pvp" .bool,
    .scalar "is_silenced" .bool,
    .scalar "is_persuaded" .bool,
    .scalar "swimming" .bool,
    .scalar "remove_attack_icon" .bool,
    .scalar "is_pacified" .bool,
    .scalar "is_stunned" .bool,
    .scalar "in_combat" .bool,
    .scalar "in_taxi_flight" .bool,
    .scalar "disarmed" .bool,
    .scalar "confused" .bool,
    .scalar "fleeing" .bool,
    .scalar "possessed" .bool,
    .scalar "not_selectable" .bool,
    .scalar "skinnable" .bool,
    .scalar "auras_visible" .bool,
    .scalar "unit_flag_unk28" .bool,
    .scalar "unit_flag_unk29" .bool,
    .scalar "sheathe" .bool,
    .scalar "no_kill_reward" .bool,
    .scalar "feign_death" .bool,
    .scalar "hide_body_armor" .bool,
    .scalar "ignore_reputation" .bool,
    .scalar "comprehend_language" .bool,
    .scalar "cloned" .bool,
    .scalar "unit_flag2_unk5" .bool,
    .scalar "force_move" .bool,
    .scalar "disarm_offhand" .bool,
    .scalar "unit_flag2_unk8" .bool,
    .scalar "unit_flag2_unk9" .bool,
    .scalar "disarm_ranged" .bool,
    .scalar "regenerate_power" .bool,
    .scalar "spell_click_in_group" .bool,
    .scalar "spell_click_disabled" .bool,
    .scalar "interact_any_reaction" .bool,
    .padding .bool 17,
    .scalar "aura_state" .u32,
    .scalar "base_attack_time" .u32,
    .scalar "offhand_attack_time" .u32,
    .scalar "ranged_attack_time" .u32,
    .scalar "bounding_radius" .f32,
    .scalar "combat_reach" .f32,
    .scalar "display_id" .u32,
    .scalar "native_display_id" .u32,
    .scalar "mount_display_id" .u32,
    .scalar "min_damage" .f32,
    .scalar "max_damage" .f32,
    .scalar "min_offhand_damage" .u32,
    .scalar "max_offhand_damage" .u32,
    .scalar "stand_state" .u8,
    .scalar "loyalty_level" .u8,
    .scalar "shapeshift_form" .u8,
    .scalar "stand_misc_flags" .u8,
    .scalar "pet_number" .u32,
    .scalar "pet_name_timestamp" .u32,
    .scalar "pet_experience" .u32,
    .scalar "pet_next_level_exp" .u32,
    .scalar "lootable" .bool,
    .scalar "track_unit" .bool,
    .scalar "tapped" .bool,
    .scalar "tapped_by_player" .bool,
    .scalar "special_info" .bool,
    .scalar "visually_dead" .bool,
    .scalar "refer_a_friend" .bool,
    .scalar "tapped_by_all_threat_list" .bool,
    .padding .bool 24,
    .scalar "mod_cast_speed" .f32,
    .scalar "created_by_spell" .u32,
    .scalar "gossip" .bool,
    .scalar "quest_giver" .bool,
    .scalar "vendor" .bool,
    .scalar "flight_master" .bool,
    .scalar "trainer" .bool,
    .scalar "spirit_healer" .bool,
    .scalar "spirit_guide" .bool,
    .scalar "innkeeper" .bool,
    .scalar "banker" .bool,
    .scalar "petitioner" .bool,
    .scalar "tabard_designer" .bool,
    .scalar "battle_master" .bool,
    .scalar "auctioneer" .bool,
    .scalar "stable_master" .bool,
    .scalar "repairer" .bool,
    .padding .bool 17,
    .scalar "npc_emote_state" .u32,
    .scalar "strength" .u32,
    .scalar "agility" .u32,
    .scalar "stamina" .u32,
    .scalar "intellect" .u32,
    .scalar "spirit" .u32,
    .array "pos_stats" .u32 5,
    .array "neg_stats" .u32 5,
    .array "resistances" .u32 7,
    .array "resistance_buff_mods_positive" .u32 7,
    .array "resistance_buff_mods_negative" .u32 7,
    .scalar "base_mana" .u32,
    .scalar "base_health" .u32,
    .scalar "sheath_state" .u8,
    .scalar "aura_byte_flags" .u8,
    .scalar "pet_rename" .u8,
    .scalar "pet_shapeshift_form" .u8,
    .scalar "attack_power" .i32,
    .scalar "attack_power_mods" .i32,
    .scalar "attack_power_multiplier" .f32,
    .scalar "ranged_attack_power" .i32,
    .scalar "ranged_attack_power_mods" .i32,
    .scalar "ranged_attack_power_multiplier" .f32,
    .scalar "min_ranged_damage" .f32,
    .scalar "max_ranged_damage" .f32,
    .array "power_cost_modifier" .u32 7,
    .array "power_cost_multiplier" .f32 7,
    .scalar "max_health_modifier" .f32,
    .scalar "hover_height" .f32,
    .padding .u32 1]
  properties := [
    .ofField "charm" .guid,
    .ofField "summon" .guid,
    .ofField "summoned_by" .guid,
    .ofField "created_by" .guid,
    .ofField "target" .guid,
    .ofField "channel_spell" .u32,
    .ofField "race" .u8,
    .ofField "class" .u8,
    .ofField "gender" .u8,
    .ofField "power_type" .u8,
    .ofField "health" .u32,
    .ofField "max_health" .u32,
    .ofField "level" .u32,
    .ofField "faction_template" .u32,
    .ofField "server_controlled" .bool,
    .ofField "non_attackable" .bool,
    .ofField "player_controlled" .bool,
    .ofField "pvp" .bool,
    .ofField "swimming" .bool,
    .ofField "in_combat" .bool,
    .ofField "in_taxi_flight" .bool,
    .ofField "not_selectable" .bool,
    .ofField "skinnable" .bool,
    .ofField "feign_death" .bool,
    .ofField "regenerate_power" .bool,
    .ofField "aura_state" .u32,
    .ofField "base_attack_time" .u32,
    .ofField "ranged_attack_time" .u32,
    .ofField "bounding_radius" .f32,
    .ofField "combat_reach" .f32,
    .ofField "display_id" .u32,
    .ofField "native_display_id" .u32,
    .ofField "mount_display_id" .u32,
    .ofField "min_damage" .f32,
    .ofField "max_damage" .f32,
    .ofField "stand_state" .u8,
    .ofField "shapeshift_form" .u8,
    .ofField "lootable" .bool,
    .ofField "tapped" .bool,
    .ofField "visually_dead" .bool,
    .ofField "mod_cast_speed" .f32,
    .ofField "gossip" .bool,
    .ofField "quest_giver" .bool,
    .ofField "vendor" .bool,
    .ofField "trainer" .bool,
    .ofField "npc_emote_state" .u32,
    .ofField "base_mana" .u32,
    .ofField "base_health" .u32,
    .ofField "sheath_state" .u8,
    .ofField "attack_power" .i32,
    .ofField "attack_power_multiplier" .f32,
    .ofField "ranged_attack_power" .i32,
    .ofField "max_health_modifier" .f32,
    .ofField "hover_height" .f32,
    .element "power_regen" "power_regen_flat_modifier" .f32,
    .element "virtual_item" "virtual_item_slot_ids" .u32,
    .element "pos_stat" "pos_stats" .u32,
    .element "neg_stat" "neg_stats" .u32,
    .element "resistance" "resistances" .u32,
    .element "power_cost_modifier" "power_cost_modifier" .u32,
    .element "power_cost_multiplier" "power_cost_multiplier" .f32]

end ObjectSync.PartTable
