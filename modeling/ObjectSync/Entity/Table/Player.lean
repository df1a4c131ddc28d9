import ObjectSync.Entity.Property

/-!
# The player part

What only the avatars of players carry. The quest log, the visible items and the skills are arrays
of words and half words, read and written entry by entry by `Entity.Entries`.
-/

namespace ObjectSync.PartTable

def player : PartTable where
  name := "player"
  fields := [
    .scalar "duel_arbiter" .u64,
    .scalar "group_leader" .bool,
    .scalar "afk" .bool,
    .scalar "dnd" .bool,
    .scalar "gm" .bool,
    .scalar "ghost" .bool,
    .scalar "resting" .bool,
    .scalar "voice_chat" .bool,
    .scalar "ffa_pvp" .bool,
    .scalar "contested_pvp" .bool,
    .scalar "in_pvp" .bool,
    .scalar "hide_helm" .bool,
    .scalar "hide_cloak" .bool,
    .scalar "played_long_time" .bool,
    .scalar "played_too_long" .bool,
    .scalar "out_of_bounds" .bool,
    .scalar "developer" .bool,
    .padding .bool 1,
    .scalar "taxi_benchmark" .bool,
    .scalar "pvp_timer" .bool,
    .scalar "uber" .bool,
    .padding .bool 2,
    .scalar "commentator" .bool,
    .scalar "only_allow_abilities" .bool,
    .scalar "stop_melee_on_tab" .bool,
    .scalar "no_experience_gain" .bool,
    .padding .bool 6,
    .scalar "guild_id" .u32,
    .scalar "guild_rank" .u32,
    .scalar "skin" .u8,
    .scalar "face" .u8,
    .scalar "hair_style" .u8,
    .scalar "hair_color" .u8,
    .scalar "facial_hair" .u8,
    .scalar "rest_bits" .u8,
    .scalar "bank_bag_slot_count" .u8,
    .scalar "rest_state" .u8,
    .scalar "player_gender" .u8,
    .scalar "gender_unk" .u8,
    .scalar "drunkenness" .u8,
    .scalar "pvp_rank" .u8,
    .scalar "duel_team" .u32,
    .scalar "guild_timestamp" .u32,
    .array "quest_log" .u32 125,
    .array "visible_items" .u32 38,
    .scalar "chosen_title" .u32,
    .scalar "fake_inebriation" .u32,
    .padding .u32 1,
    .array "inventory_slots" .u64 23,
    .array "pack_slots" .u64 16,
    .array "bank_slots" .u64 28,
    .array "bank_bag_slots" .u64 7,
    .array "vendor_buyback_slots" .u64 12,
    .array "keyring_slots" .u64 32,
    .array "currency_token_slots" .u64 32,
    .scalar "far_sight" .u64,
    .array "known_titles" .u32 6,
    .array "known_currencies" .u32 2,
    .scalar "xp" .u32,
    .scalar "next_level_xp" .u32,
    .array "skills" .u16 768,
    .array "character_points" .u32 2,
    .scalar "track_creatures" .u32,
    .scalar "track_resources" .u32,
    .scalar "block_percentage" .f32,
    .scalar "dodge_percentage" .f32,
    .scalar "parry_percentage" .f32,
    .scalar "expertise" .u32,
    .scalar "offhand_expertise" .u32,
    .scalar "crit_percentage" .f32,
    .scalar "ranged_crit_percentage" .f32,
    .scalar "offhand_crit_percentage" .f32,
    .array "spell_crit_percentage" .f32 7,
    .scalar "shield_block" .u32,
    .scalar "shield_block_crit_percentage" .f32,
    .array "explored_zones" .u32 128,
    .scalar "rest_state_experience" .u32,
    .scalar "coinage" .i32,
    .array "mod_damage_done_positive" .u32 7,
    .array "mod_damage_done_negative" .u32 7,
    .array "mod_damage_done_percentage" .f32 7,
    .scalar "mod_healing_done_pos" .u32,
    .scalar "mod_healing_percentage" .f32,
    .scalar "mod_healing_done_percentage" .f32,
    .scalar "mod_target_resistance" .u32,
    .scalar "mod_target_physical_resistance" .u32,
    .padding .bool 1,
    .scalar "track_stealthed" .bool,
    .padding .bool 1,
    .scalar "display_spirit_auto_release_timer" .bool,
    .scalar "hide_spirit_release_window" .bool,
    .padding .bool 3,
    .scalar "refer_a_friend_grantable_level" .u8,
    .scalar "action_bar_toggles" .u8,
    .scalar "lifetime_max_pvp_rank" .u8,
    .scalar "ammo_id" .u32,
    .scalar "self_res_spell" .u32,
    .scalar "pvp_medals" .u32,
    .array "buyback_prices" .u32 12,
    .array "buyback_timestamps" .u32 12,
    .scalar "kills" .u32,
    .scalar "today_kills" .u32,
    .scalar "yesterday_kills" .u32,
    .scalar "lifetime_honorable_kills" .u32,
    .padding .u8 1,
    .scalar "ignore_power_regen_prediction_mask" .u8,
    .scalar "override_spells_id" .u16,
    .scalar "watched_faction_index" .i32,
    .array "combat_ratings" .u32 25,
    .array "arena_team_info" .u32 21,
    .scalar "honor_currency" .u32,
    .scalar "arena_currency" .u32,
    .scalar "max_level" .u32,
    .array "daily_quests" .u32 25,
    .array "rune_regen" .f32 4,
    .array "no_reagent_cost" .u32 3,
    .array "glyph_slots" .u32 6,
    .array "glyphs" .u32 6,
    .scalar "glyphs_enabled" .u32,
    .scalar "pet_spell_power" .u32]
  properties := [
    .ofField "duel_arbiter" .guid,
    .ofField "group_leader" .bool,
    .ofField "afk" .bool,
    .ofField "dnd" .bool,
    .ofField "gm" .bool,
    .ofField "ghost" .bool,
    .ofField "resting" .bool,
    .ofField "in_pvp" .bool,
    .ofField "no_experience_gain" .bool,
    .ofField "guild_id" .u32,
    .ofField "guild_rank" .u32,
    .ofField "skin" .u8,
    .ofField "face" .u8,
    .ofField "hair_style" .u8,
    .ofField "hair_color" .u8,
    .ofField "facial_hair" .u8,
    .ofField "rest_state" .u8,
    .ofField "player_gender" .u8,
    .ofField "chosen_title" .u32,
    .ofField "far_sight" .guid,
    .ofField "xp" .u32,
    .ofField "next_level_xp" .u32,
    .ofField "rest_state_experience" .u32,
    .ofField "coinage" .i32,
    .ofField "track_stealthed" .bool,
    .ofField "action_bar_toggles" .u8,
    .ofField "ammo_id" .u32,
    .ofField "override_spells_id" .u16,
    .ofField "watched_faction_index" .i32,
    .ofField "max_level" .u32,
    .ofField "pet_spell_power" .u32,
    .element "inventory_slot" "inventory_slots" .guid,
    .element "pack_slot" "pack_slots" .guid,
    .element "bank_slot" "bank_slots" .guid,
    .element "known_titles" "known_titles" .u32,
    .element "explored_zones" "explored_zones" .u32,
    .element "combat_rating" "combat_ratings" .u32,
    .element "glyph" "glyphs" .u32]

end ObjectSync.PartTable
