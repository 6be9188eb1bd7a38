import UiCodegen.Interpreter.Source.Template

/-!
# Reading scalars

The part of the C interpreter that reads document values as scalars, strings, colours, coordinates
and pointers.
-/

namespace UiCodegen.Interpreter.Source

/-- Integers of every width. -/
def numbers : List Bytes := lines r#"/* Primitive unmarshalers. Each writes dest only on success. */

typedef bool (*unmarshal_fn_t)(cJSON *node, void *dest);

/* number_of reads a number, a bool or an enum/macro name. */
static bool number_of(cJSON *node, double *out)
<%
 int v;
 if (cJSON_IsNumber(node)) <%
  *out = node->valuedouble;
  return true;
 %>
 if (cJSON_IsBool(node)) <%
  *out = cJSON_IsTrue(node) ? 1.0 : 0.0;
  return true;
 %>
 if (cJSON_IsString(node) && unmarshal_enum_value(node, "int", &v)) <%
  *out = (double)v;
  return true;
 %>
 return false;
%>

/* parse_percent accepts "N%" but not the escaped "N%%". */
static bool parse_percent(const char *s, long *out)
<%
 char *end;
 long n;
 if (!s || !*s) <%
  return false;
 %>
 n = strtol(s, &end, 10);
 if (end == s || end[0] != '%' || end[1] != '\0') <%
  return false;
 %>
 *out = n;
 return true;
%>

#define DEFINE_INT_UNMARSHALER(NAME, T, LO, HI)                                   \
 static bool unmarshal_##NAME(cJSON *node, void *dest)                         \
 <%                                                                             \
  double v;                                                                 \
  if (!number_of(node, &v)) <%                                               \
   return false;                                                         \
  %>                                                                         \
  if (v < (double)(LO) || v > (double)(HI)) <%                               \
   LVGL_JSON_LOG_WARN("lvgl_json: %g out of range for " #T, v);          \
   return false;                                                         \
  %>                                                                         \
  *(T *)dest = (T)v;                                                        \
  return true;                                                              \
 %>

DEFINE_INT_UNMARSHALER(int8, int8_t, INT8_MIN, INT8_MAX)
DEFINE_INT_UNMARSHALER(uint8, uint8_t, 0, UINT8_MAX)
DEFINE_INT_UNMARSHALER(int16, int16_t, INT16_MIN, INT16_MAX)
DEFINE_INT_UNMARSHALER(uint16, uint16_t, 0, UINT16_MAX)
DEFINE_INT_UNMARSHALER(int32, int32_t, INT32_MIN, INT32_MAX)
DEFINE_INT_UNMARSHALER(uint32, uint32_t, 0, UINT32_MAX)
DEFINE_INT_UNMARSHALER(int64, int64_t, INT64_MIN, INT64_MAX)
DEFINE_INT_UNMARSHALER(uint64, uint64_t, 0, UINT64_MAX)
DEFINE_INT_UNMARSHALER(size_t, size_t, 0, SIZE_MAX)
DEFINE_INT_UNMARSHALER(int, int, INT32_MIN, INT32_MAX)
DEFINE_INT_UNMARSHALER(unsigned, unsigned int, 0, UINT32_MAX)
DEFINE_INT_UNMARSHALER(char, char, CHAR_MIN, CHAR_MAX)
"#

/-- Floating point numbers, truth values and strings. -/
def flagsAndStrings : List Bytes := lines "static bool unmarshal_float(cJSON *node, void *dest)
<%
 double v;
 if (!number_of(node, &v)) <%
  return false;
 %>
 *(float *)dest = (float)v;
 return true;
%>

static bool unmarshal_double(cJSON *node, void *dest)
<%
 double v;
 if (!number_of(node, &v)) <%
  return false;
 %>
 *(double *)dest = v;
 return true;
%>

static bool unmarshal_bool(cJSON *node, void *dest)
<%
 if (cJSON_IsBool(node)) <%
  *(bool *)dest = cJSON_IsTrue(node);
  return true;
 %>
 if (cJSON_IsNumber(node)) <%
  *(bool *)dest = node->valueint != 0;
  return true;
 %>
 return false;
%>

static bool unmarshal_string(cJSON *node, void *dest)
<%
 if (cJSON_IsNull(node)) <%
  *(const char **)dest = NULL;
  return true;
 %>
 if (!cJSON_IsString(node)) <%
  return false;
 %>
 *(const char **)dest = lvgl_json_register_str(node->valuestring);
 return true;
%>
"

def colors : List Bytes := lines r"static bool parse_hex_color(const char *s, uint32_t *out)
<%
 char buf[7];
 size_t n;
 char *end;
 if (!s || s[0] != '#') <%
  return false;
 %>
 s++;
 n = strlen(s);
 if (n == 3) <%
  buf[0] = buf[1] = s[0];
  buf[2] = buf[3] = s[1];
  buf[4] = buf[5] = s[2];
 %> else if (n == 6) <%
  memcpy(buf, s, 6);
 %> else if (n == 8) <%
  memcpy(buf, s + 2, 6);
 %> else <%
  return false;
 %>
 buf[6] = '\0';
 *out = (uint32_t)strtoul(buf, &end, 16);
 return *end == '\0';
%>

static bool unmarshal_color(cJSON *node, void *dest)
<%
 uint32_t rgb;
 if (cJSON_IsString(node) && parse_hex_color(node->valuestring, &rgb)) <%
  *(lv_color_t *)dest = lv_color_hex(rgb);
  return true;
 %>
 if (cJSON_IsNumber(node) && node->valuedouble >= 0) <%
  *(lv_color_t *)dest = lv_color_hex((uint32_t)node->valuedouble);
  return true;
 %>
 return false;
%>
"

def coordinates : List Bytes := lines r#"/* coord_of reads a coordinate: a number, "N%" or LV_GRID_FR(n). */
static bool coord_of(cJSON *node, int32_t *out)
<%
 long pct;
 if (cJSON_IsString(node) && node->valuestring) <%
  const char *s = node->valuestring;
  if (parse_percent(s, &pct)) <%
   *out = (int32_t)lv_pct((int32_t)pct);
   return true;
  %>
  if (strncmp(s, "LV_GRID_FR(", 11) == 0) <%
   char *end;
   long fr = strtol(s + 11, &end, 10);
   if (end != s + 11 && end[0] == ')' && end[1] == '\0') <%
    *out = (int32_t)LV_GRID_FR(fr);
    return true;
   %>
   return false;
  %>
 %>
 return unmarshal_int32(node, out);
%>

/* unmarshal_coord stores through lv_coord_t, whose width depends on the
 * LVGL version. */
static bool unmarshal_coord(cJSON *node, void *dest)
<%
 int32_t v;
 if (!coord_of(node, &v)) <%
  return false;
 %>
 if ((int32_t)(lv_coord_t)v != v) <%
  LVGL_JSON_LOG_WARN("lvgl_json: %ld out of range for lv_coord_t", (long)v);
  return false;
 %>
 *(lv_coord_t *)dest = (lv_coord_t)v;
 return true;
%>

static bool unmarshal_coord32(cJSON *node, void *dest)
<%
 int32_t v;
 if (!coord_of(node, &v)) <%
  return false;
 %>
 *(int32_t *)dest = v;
 return true;
%>

static bool unmarshal_opa(cJSON *node, void *dest)
<%
 long pct;
 if (cJSON_IsString(node) && parse_percent(node->valuestring, &pct)) <%
  if (pct < 0 || pct > 100) <%
   return false;
  %>
  *(lv_opa_t *)dest = (lv_opa_t)(pct * 255 / 100);
  return true;
 %>
 return unmarshal_uint8(node, dest);
%>
"#

def pointers : List Bytes := lines r#"static bool unmarshal_pointer(cJSON *node, void *dest)
<%
 if (cJSON_IsNull(node) || (cJSON_IsNumber(node) && node->valuedouble == 0)) <%
  *(void **)dest = NULL;
  return true;
 %>
 return false;
%>

/* unmarshal_src takes a string for image-like sources, or a pointer. */
static bool unmarshal_src(cJSON *node, void *dest)
<%
 if (cJSON_IsString(node)) <%
  *(const void **)dest = lvgl_json_register_str(node->valuestring);
  return true;
 %>
 return unmarshal_pointer(node, dest);
%>

/* unmarshal_coord_array builds a registry-owned array terminated with
 * LV_GRID_TEMPLATE_LAST; LVGL keeps the pointer. */
static bool unmarshal_coord_array(cJSON *node, void *dest)
<%
 int n, i;
 int32_t *arr;
 if (cJSON_IsNull(node)) <%
  *(int32_t **)dest = NULL;
  return true;
 %>
 if (!cJSON_IsArray(node)) <%
  return false;
 %>
 n = cJSON_GetArraySize(node);
 arr = (int32_t *)own_alloc((size_t)(n + 1) * sizeof(int32_t));
 if (!arr) <%
  return false;
 %>
 for (i = 0; i < n; i++) <%
  if (!unmarshal_value(cJSON_GetArrayItem(node, i), "int32_t", &arr[i], NULL)) <%
   return false;
  %>
 %>
 if (n == 0 || arr[n - 1] != LV_GRID_TEMPLATE_LAST) <%
  arr[n] = LV_GRID_TEMPLATE_LAST;
 %>
 *(int32_t **)dest = arr;
 return true;
%>"#

end UiCodegen.Interpreter.Source
